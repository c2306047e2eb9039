import BundleCoverage.Text.Blank
import BundleCoverage.Text.Lines
import BundleCoverage.Text.Search
import BundleCoverage.Text.Units

/-!
# Lines with code

Some lines of a source carry no code: blank lines, lines of brackets and punctuation
only, line comments, and lines inside a block comment.  A comment is recognised where a
line starts with it, or where an earlier line has left it open, and what follows the end
of a block comment is judged instead.

A line with code spans the columns from its first character that is not blank to its
last, the end excluded.
-/

namespace BundleCoverage

open Text

/-- A line with code. -/
structure CodeLine where
  /-- The number of the line, from one. -/
  line : Nat
  /-- The column of the first character that is not blank. -/
  start : Nat
  /-- The column after the last one. -/
  stop : Nat
deriving Repr, DecidableEq, Inhabited

namespace CodeLine

/-- Whether a character closes or opens a bracket, or separates. -/
def isPunctuation (c : Char) : Bool := "\x7b\x7d()[];,".toList.contains c

/-- Whether a line carries code, given what is left of it without comments. -/
def isCode (text : List Char) : Bool :=
  text ≠ [] && !startsWith text "//".toList && !text.all isPunctuation

/-- What a line says about code. -/
structure Judgement where
  /-- Whether a block comment is open after the line. -/
  inComment : Bool
  /-- Whether the line carries code. -/
  code : Bool
deriving Repr, DecidableEq

/-- Judges a line that is not inside a comment. -/
def judgeOutside (text : List Char) : Judgement :=
  if startsWith text "/*".toList then
    match cut? "*/".toList text with
    | some (_, after) => ⟨false, isCode (trim after)⟩
    | none => ⟨true, false⟩
  else ⟨false, isCode text⟩

/-- Judges a line. -/
def judge (inComment : Bool) (line : List Char) : Judgement :=
  if inComment then
    match cut? "*/".toList (trim line) with
    | some (_, after) => judgeOutside (trim after)
    | none => ⟨true, false⟩
  else judgeOutside (trim line)

/-- The columns of a line. -/
def ofLine (number : Nat) (line : List Char) : CodeLine where
  line := number
  start := unitLength (line.takeWhile isBlank)
  stop := unitLength (trimEnd isBlank line)

/-- The lines with code among some lines, the first of which has a number. -/
def among (number : Nat) (inComment : Bool) : List (List Char) → List CodeLine
  | [] => []
  | line :: lines =>
    let j := judge inComment line
    let rest := among (number + 1) j.inComment lines
    if j.code then ofLine number line :: rest else rest

end CodeLine

/-- The lines with code of a text. -/
def codeLines (text : String) : List CodeLine := CodeLine.among 1 false (lines text.toList)

end BundleCoverage
