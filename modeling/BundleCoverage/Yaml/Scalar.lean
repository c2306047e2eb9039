import BundleCoverage.Text.Digits
import BundleCoverage.Yaml.Cursor

/-!
# YAML scalars

A plain scalar ends before a colon or a number sign that is set off by a space, and at
brackets and commas if it stands inside brackets.  A quoted scalar ends at its quote.
Either may go on over several lines: one line break stands for a space, and each further
one for itself.
-/

namespace BundleCoverage.Yaml

/-- A scalar that was read. -/
structure ScalarRead where
  /-- Its text. -/
  text : String
  /-- The place after it. -/
  after : Cursor
  /-- Whether a line ended in it or after it. -/
  multiline : Bool

/-- Whether a character is a bracket or comma. -/
def isFlowIndicator (c : Char) : Bool := ",[]\x7b\x7d".toList.contains c

/-- Whether a plain scalar can start with a text. -/
def startsPlain (flow : Bool) : List Char → Bool
  | [] => false
  | '-' :: rest => !atGap rest
  | '?' :: rest | ':' :: rest => !flow && !atGap rest
  | c :: _ => !isGap c && c ≠ '\n' && !isFlowIndicator c && !"#&*!|>'\"%@\x60".toList.contains c

/-- What stands for some line breaks in a row, with the spaces before them if there are
none. -/
def folded (gaps : List Char) : (breaks : Nat) → List Char
  | 0 => gaps
  | 1 => [' ']
  | n + 2 => List.replicate (n + 1) '\n'

/-- A scalar of which a part is read. -/
structure Reading where
  /-- The text, the last character first. -/
  text : List Char := []
  /-- The spaces after it, the last one first. -/
  gaps : List Char := []
  /-- The line breaks after it. -/
  breaks : Nat := 0
  /-- Whether any line has ended. -/
  multiline : Bool := false

namespace Reading

/-- One more character that is neither a space nor a line break. -/
def push (r : Reading) (c : Char) : Reading :=
  { r with text := c :: folded r.gaps r.breaks ++ r.text, gaps := [], breaks := 0 }

/-- One more space or tab. -/
def pushGap (r : Reading) (c : Char) : Reading :=
  if r.breaks = 0 then { r with gaps := c :: r.gaps } else r

/-- One more line break. -/
def pushBreak (r : Reading) : Reading :=
  { r with gaps := [], breaks := r.breaks + 1, multiline := true }

/-- The text without what is after it. -/
def done (r : Reading) : String := String.ofList r.text.reverse

/-- The text with what is after it. -/
def doneAll (r : Reading) : String := String.ofList (folded r.gaps r.breaks ++ r.text).reverse

end Reading

/-- Whether a plain scalar ends before a text. -/
def endsPlain (flow : Bool) (r : Reading) (text : List Char) : Bool :=
  match text with
  | [] => true
  | ':' :: rest => atGap rest || (flow && rest.head?.any isFlowIndicator)
  | '#' :: _ => !r.gaps.isEmpty || 0 < r.breaks
  | c :: _ => flow && isFlowIndicator c

/-- Reads a plain scalar.  Outside brackets its lines have to reach `column`. -/
def plainFrom (flow : Bool) (minColumn : Nat) (r : Reading) (column : Nat) :
    List Char → ScalarRead
  | [] => ⟨r.done, ⟨[], column⟩, r.multiline⟩
  | c :: rest =>
    if c = '\n' then plainFrom flow minColumn r.pushBreak 0 rest
    else if isGap c then plainFrom flow minColumn (r.pushGap c) (column + 1) rest
    else if endsPlain flow r (c :: rest) || (0 < r.breaks && !flow && column < minColumn)
        || (0 < r.breaks && column = 0 && Cursor.startsWithMark (c :: rest)) then
      ⟨r.done, ⟨c :: rest, column⟩, r.multiline⟩
    else plainFrom flow minColumn (r.push c) (column + 1) rest

/-- Reads a scalar in single quotes, from after the opening quote. -/
def singleFrom (r : Reading) (column : Nat) : List Char → Option ScalarRead
  | [] => none
  | '\'' :: '\'' :: rest => singleFrom (r.push '\'') (column + 2) rest
  | '\'' :: rest => some ⟨r.doneAll, ⟨rest, column + 1⟩, r.multiline⟩
  | c :: rest =>
    if c = '\n' then singleFrom r.pushBreak 0 rest
    else if isGap c then singleFrom (r.pushGap c) (column + 1) rest
    else singleFrom (r.push c) (column + 1) rest

/-- The character that a letter after a backslash stands for. -/
def escapedChar? (c : Char) : Option Char :=
  match c with
  | '0' => some '\x00'
  | 'a' => some '\x07'
  | 'b' => some '\x08'
  | 't' | '\t' => some '\t'
  | 'n' => some '\n'
  | 'v' => some '\x0B'
  | 'f' => some '\x0C'
  | 'r' => some '\r'
  | 'e' => some '\x1B'
  | ' ' | '"' | '/' | '\\' => some c
  | 'N' => some (Char.ofNat 0x85)
  | '_' => some (Char.ofNat 0xA0)
  | 'L' => some (Char.ofNat 0x2028)
  | 'P' => some (Char.ofNat 0x2029)
  | _ => none

/-- The number of digits after a letter that is followed by some. -/
def escapeWidth? (c : Char) : Option Nat :=
  match c with
  | 'x' => some 2
  | 'u' => some 4
  | 'U' => some 8
  | _ => none

/-- Reads a scalar in double quotes, from after the opening quote.  Every call takes a
character, so the length of the text is enough fuel. -/
def doubleFrom : (fuel : Nat) → Reading → (column : Nat) → List Char → Option ScalarRead
  | 0, _, _, _ => none
  | _, _, _, [] => none
  | _ + 1, r, column, '"' :: rest => some ⟨r.doneAll, ⟨rest, column + 1⟩, r.multiline⟩
  | fuel + 1, r, _, '\\' :: '\n' :: rest =>
    let text := folded r.gaps r.breaks ++ r.text
    doubleFrom fuel { text, multiline := true } 0 (rest.dropWhile isGap)
  | fuel + 1, r, column, '\\' :: c :: rest =>
    match escapeWidth? c with
    | some width =>
      if (rest.take width).length < width then none
      else
        match Text.hexChar? (rest.take width) with
        | some d => doubleFrom fuel (r.push d) (column + 2 + width) (rest.drop width)
        | none => none
    | none =>
      match escapedChar? c with
      | some d => doubleFrom fuel (r.push d) (column + 2) rest
      | none => none
  | fuel + 1, r, column, c :: rest =>
    if c = '\n' then doubleFrom fuel r.pushBreak 0 rest
    else if isGap c then doubleFrom fuel (r.pushGap c) (column + 1) rest
    else doubleFrom fuel (r.push c) (column + 1) rest

/-- Reads a scalar that starts at a place, and says whether it is plain. -/
def scalar? (flow : Bool) (minColumn : Nat) (c : Cursor) : Option (Bool × ScalarRead) :=
  match c.rest with
  | '"' :: rest => (doubleFrom (rest.length + 1) {} (c.column + 1) rest).map (false, ·)
  | '\'' :: rest => (singleFrom {} (c.column + 1) rest).map (false, ·)
  | rest =>
    if startsPlain flow rest then some (true, plainFrom flow minColumn {} c.column rest) else none

end BundleCoverage.Yaml
