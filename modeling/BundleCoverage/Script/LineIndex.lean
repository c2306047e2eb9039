import BundleCoverage.Saturating
import BundleCoverage.Text.Units

/-!
# Lines of a script

A line index turns offsets of a text into lines and columns and back.  All are counted
from zero and in UTF-16 code units.  A line ends after its line feed, so a text that ends
in one has an empty last line, and an offset past the end lies on the last line.
-/

namespace BundleCoverage

/-- Where each line of a text starts. -/
structure LineIndex where
  /-- The starts of the lines, from the first. -/
  starts : List Nat
  /-- The length of the text. -/
  length : Nat
deriving Repr, DecidableEq, Inhabited

namespace LineIndex

/-- The starts of the lines that begin inside a text at some offset. -/
def startsFrom (offset : Nat) : List Char → List Nat
  | [] => []
  | c :: text =>
    let next := addWords offset (Text.unitWidth c)
    if c = '\n' then next :: startsFrom next text else startsFrom next text

/-- The index of a text. -/
def ofChars (text : List Char) : LineIndex where
  starts := 0 :: startsFrom 0 text
  length := min (Text.unitLength text) maxWord

/-- The index of a text. -/
def ofText (text : String) : LineIndex := ofChars text.toList

/-- The number of lines. -/
def lineCount (index : LineIndex) : Nat := index.starts.length

/-- The offset at which a line starts. -/
def lineStart (index : LineIndex) (line : Nat) : Option Nat := index.starts[line]?

/-- The line and column of an offset. -/
def position (index : LineIndex) (offset : Nat) : Nat × Nat :=
  let before := index.starts.takeWhile (· ≤ offset)
  (before.length - 1, offset - before.getLast?.getD 0)

/-- The offset of a line and column, if there is such a line. -/
def offset (index : LineIndex) (line column : Nat) : Option Nat :=
  (index.lineStart line).map fun start => addWords start column

end LineIndex

end BundleCoverage
