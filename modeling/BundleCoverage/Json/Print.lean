import BundleCoverage.Json.Basic

/-!
# Printing JSON

`Json.compact` prints a value without spaces.  `Json.pretty` puts each item and member
on a line of its own, indented by two spaces a level, and an empty array or object on
one line.  Both write the members of an object in their order.  In a string, the
double quote, the backslash and the control characters below U+0020 are escaped and
nothing else is.
-/

namespace BundleCoverage.Json

/-- What stands for a character inside a string literal. -/
def escapedChar (c : Char) : List Char :=
  if c = '"' then ['\\', '"']
  else if c = '\\' then ['\\', '\\']
  else if c.toNat = 0x8 then ['\\', 'b']
  else if c.toNat = 0xC then ['\\', 'f']
  else if c = '\n' then ['\\', 'n']
  else if c = '\r' then ['\\', 'r']
  else if c = '\t' then ['\\', 't']
  else if c.toNat < 0x20 then
    ['\\', 'u', '0', '0', Nat.digitChar (c.toNat / 16), Nat.digitChar (c.toNat % 16)]
  else [c]

/-- A string literal. -/
def literal (text : String) : String :=
  String.ofList ('"' :: text.toList.flatMap escapedChar ++ ['"'])

/-- The texts of a list with commas between them. -/
def commaSeparated (texts : List String) : String := ",".intercalate texts

mutual

/-- A value on one line without spaces. -/
def compact : Json → String
  | .null => "null"
  | .bool b => if b then "true" else "false"
  | .int n => toString n
  | .real l => l
  | .str s => literal s
  | .arr items => "[" ++ commaSeparated (compactItems items) ++ "]"
  | .obj members => "\x7b" ++ commaSeparated (compactMembers members) ++ "\x7d"
  | .illFormed => "null"

/-- The items of an array, each on its own. -/
def compactItems : List Json → List String
  | [] => []
  | item :: items => compact item :: compactItems items

/-- The members of an object, each on its own. -/
def compactMembers : List (String × Json) → List String
  | [] => []
  | (key, value) :: members => (literal key ++ ":" ++ compact value) :: compactMembers members

end

/-- The start of a line at some depth. -/
def newline (depth : Nat) : String := "\n" ++ "".pushn ' ' (2 * depth)

/-- Texts on lines of their own between two brackets, or the brackets alone. -/
def block (opening closing : String) (depth : Nat) : List String → String
  | [] => opening ++ closing
  | texts =>
    opening ++ newline (depth + 1) ++ ("," ++ newline (depth + 1)).intercalate texts
      ++ newline depth ++ closing

mutual

/-- A value over several lines, its first line at some depth. -/
def prettyAt (depth : Nat) : Json → String
  | .arr items => block "[" "]" depth (prettyItems (depth + 1) items)
  | .obj members => block "\x7b" "\x7d" depth (prettyMembers (depth + 1) members)
  | value => compact value

/-- The items of an array at some depth. -/
def prettyItems (depth : Nat) : List Json → List String
  | [] => []
  | item :: items => prettyAt depth item :: prettyItems depth items

/-- The members of an object at some depth. -/
def prettyMembers (depth : Nat) : List (String × Json) → List String
  | [] => []
  | (key, value) :: members =>
    (literal key ++ ": " ++ prettyAt depth value) :: prettyMembers depth members

end

/-- A value over several lines. -/
def pretty (value : Json) : String := prettyAt 0 value

end BundleCoverage.Json
