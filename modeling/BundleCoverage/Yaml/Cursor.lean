/-!
# Places in a YAML text

Blocks are told apart by the columns they start in, so a place in a text is the rest of
the text together with its column.
-/

namespace BundleCoverage.Yaml

/-- A place in a text. -/
structure Cursor where
  /-- The rest of the text. -/
  rest : List Char
  /-- The column, from zero. -/
  column : Nat
deriving Repr, DecidableEq

/-- Whether a character is a space or a tab. -/
def isGap (c : Char) : Bool := c = ' ' || c = '\t'

/-- Whether a text is at an end, at a line end, or at a space or tab. -/
def atGap (text : List Char) : Bool := text.head?.all fun c => isGap c || c = '\n'

namespace Cursor

/-- The place some characters of the line further on. -/
def advance (c : Cursor) (n : Nat) : Cursor := ⟨c.rest.drop n, c.column + n⟩

/-- The place after the spaces and tabs. -/
def skipGaps (c : Cursor) : Cursor := c.advance (c.rest.takeWhile isGap).length

/-- Whether the rest of the line is empty or a comment. -/
def atLineEnd (c : Cursor) : Bool :=
  c.rest.head?.all fun d => d = '\n' || d = '#'

/-- The place of the next token, from a place in a line.  Comments are skipped, and tabs
unless they indent a line. -/
def tokenFrom (tabs comment : Bool) (column : Nat) : List Char → Cursor
  | [] => ⟨[], column⟩
  | '\n' :: rest => tokenFrom false false 0 rest
  | c :: rest =>
    if comment || c = ' ' || (c = '\t' && tabs) then tokenFrom tabs comment (column + 1) rest
    else if c = '#' then tokenFrom tabs true (column + 1) rest
    else ⟨c :: rest, column⟩

/-- The place of the next token. -/
def token (c : Cursor) (tabs : Bool) : Cursor := tokenFrom tabs false c.column c.rest

/-- The place of the next token inside brackets, where lines need no indentation. -/
def flowTokenFrom (comment : Bool) (column : Nat) : List Char → Cursor
  | [] => ⟨[], column⟩
  | '\n' :: rest => flowTokenFrom false 0 rest
  | c :: rest =>
    if comment || isGap c then flowTokenFrom comment (column + 1) rest
    else if c = '#' then flowTokenFrom true (column + 1) rest
    else ⟨c :: rest, column⟩

/-- The place of the next token inside brackets. -/
def flowToken (c : Cursor) : Cursor := flowTokenFrom false c.column c.rest

/-- Whether a text starts with a mark between documents. -/
def startsWithMark : List Char → Bool
  | '-' :: '-' :: '-' :: rest => atGap rest
  | '.' :: '.' :: '.' :: rest => atGap rest
  | _ => false

/-- Whether a document ends here. -/
def atDocumentEnd (c : Cursor) : Bool := c.rest.isEmpty || (c.column == 0 && startsWithMark c.rest)

/-- Whether an item of a block sequence starts here. -/
def atItem (c : Cursor) : Bool :=
  match c.rest with
  | '-' :: rest => atGap rest
  | _ => false

/-- Whether the colon between a key and a value is here. -/
def atColon (c : Cursor) : Bool :=
  match c.rest with
  | ':' :: rest => atGap rest
  | _ => false

end Cursor

end BundleCoverage.Yaml
