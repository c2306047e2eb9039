import BundleCoverage.Json.Basic
import BundleCoverage.Text.Digits
import BundleCoverage.Text.Utf8

/-!
# Reading JSON text

The grammar is strict: no byte order mark, no comments, no text after the value, no
trailing comma and no leading zero.  Nesting has no limit here; a reader that keeps
nested values sets its own.

The input is a list of characters in which `none` stands for a byte that is no
character.  Such a byte is allowed inside a string literal, which then denotes no
text.  The same holds for an escaped surrogate that is not half of a pair.
-/

namespace BundleCoverage.Json

/-- A text with the remaining input. -/
abbrev Input := List (Option Char)

/-- The white space of the grammar. -/
def isSpace : Option Char → Bool
  | some c => c = ' ' || c = '\t' || c = '\n' || c = '\r'
  | none => false

/-- The input after white space. -/
def skipSpace (input : Input) : Input := input.dropWhile isSpace

/-! ## Strings -/

/-- One element of a string literal. -/
inductive Piece
  /-- A character. -/
  | char (c : Char)
  /-- An escaped first half of a surrogate pair. -/
  | high (n : Nat)
  /-- An escaped second half. -/
  | low (n : Nat)
  /-- A byte that is no character. -/
  | stray

/-- The value of four hexadecimal digits. -/
def hexValue4? (a b c d : Option Char) : Option Nat := do
  let a ← Text.digitOf? 16 (← a)
  let b ← Text.digitOf? 16 (← b)
  let c ← Text.digitOf? 16 (← c)
  let d ← Text.digitOf? 16 (← d)
  return ((a * 16 + b) * 16 + c) * 16 + d

/-- The element an escaped code unit stands for. -/
def Piece.ofUnit (n : Nat) : Piece :=
  if 0xD800 ≤ n ∧ n < 0xDC00 then .high (n - 0xD800)
  else if 0xDC00 ≤ n ∧ n < 0xE000 then .low (n - 0xDC00)
  else .char (Char.ofNat n)

/-- The character a one-letter escape stands for. -/
def escape? (c : Char) : Option Char :=
  if c = '"' || c = '\\' || c = '/' then some c
  else if c = 'b' then some (Char.ofNat 0x8)
  else if c = 'f' then some (Char.ofNat 0xC)
  else if c = 'n' then some '\n'
  else if c = 'r' then some '\r'
  else if c = 't' then some '\t'
  else none

/-- The elements of a string literal, the last one first, and the input after its closing
quote.  `done` holds the elements read before. -/
def pieces (done : List Piece) : Input → Option (List Piece × Input)
  | [] => none
  | none :: input => pieces (.stray :: done) input
  | some '"' :: input => some (done, input)
  | some '\\' :: some 'u' :: a :: b :: c :: d :: input =>
    (hexValue4? a b c d).bind fun n => pieces (.ofUnit n :: done) input
  | some '\\' :: some e :: input => (escape? e).bind fun c => pieces (.char c :: done) input
  | some '\\' :: _ => none
  | some c :: input => if c.toNat < 0x20 then none else pieces (.char c :: done) input

/-- The characters of some elements, the last one first.  `done` holds the characters that
come after them. -/
def characters? (done : List Char) : List Piece → Option (List Char)
  | [] => some done
  | .char c :: before => characters? (c :: done) before
  | .low l :: .high h :: before =>
    characters? (Char.ofNat (0x10000 + h * 0x400 + l) :: done) before
  | _ => none

/-- The text of a string literal, if it denotes one, and the input after its closing
quote. -/
def stringAfterQuote (input : Input) : Option (Option String × Input) :=
  (pieces [] input).map fun (elements, input) =>
    ((characters? [] elements).map String.ofList, input)

/-! ## Numbers -/

/-- The decimal digits at the start of the input. -/
def digitsOf (input : Input) : List Char × Input :=
  let isDigit : Option Char → Bool := fun u => u.any Char.isDigit
  ((input.takeWhile isDigit).filterMap id, input.dropWhile isDigit)

/-- The value of decimal digits. -/
def digitsValue (digits : List Char) : Nat :=
  digits.foldl (fun n c => 10 * n + (c.toNat - 48)) 0

/-- The fraction at the start of the input; empty if there is none. -/
def fraction? : Input → Option (List Char × Input)
  | some '.' :: input =>
    match digitsOf input with
    | ([], _) => none
    | (digits, input) => some ('.' :: digits, input)
  | input => some ([], input)

/-- The sign at the start of the input; empty if there is none. -/
def signOf : Input → List Char × Input
  | some '+' :: input => (['+'], input)
  | some '-' :: input => (['-'], input)
  | input => ([], input)

/-- The exponent at the start of the input; empty if there is none. -/
def exponent? : Input → Option (List Char × Input)
  | some c :: input =>
    if c = 'e' || c = 'E' then
      let (sign, input) := signOf input
      match digitsOf input with
      | ([], _) => none
      | (digits, input) => some (c :: sign ++ digits, input)
    else some ([], some c :: input)
  | input => some ([], input)

/-- The number at the start of the input. -/
def number? (negative : Bool) (input : Input) : Option (Json × Input) := do
  let (whole, input) := digitsOf input
  if whole.isEmpty || (1 < whole.length && whole.head? == some '0') then none
  let (frac, input) ← fraction? input
  let (expo, input) ← exponent? input
  let value := digitsValue whole
  if frac.isEmpty && expo.isEmpty && !(negative && value == 0) then
    return (.int (if negative then -(value : Int) else value), input)
  else
    let sign := if negative then ['-'] else []
    return (.real (String.ofList (sign ++ whole ++ frac ++ expo)), input)

/-! ## Values -/

/-- The input after a word it starts with. -/
def word? (word : String) (input : Input) : Option Input :=
  let units := word.toList.map some
  if units.isPrefixOf input then some (input.drop units.length) else none

/-- An object, unless one of its keys cannot be read. -/
def object (members : List (Option String × Json)) : Json :=
  match members.mapM fun (key, value) => key.map (·, value) with
  | some members => .obj members
  | none => .illFormed

mutual

/-- The value at the start of the input.  Every call and every item takes at least one
character, so the length of the input is enough fuel. -/
def value? : (fuel : Nat) → Input → Option (Json × Input)
  | 0, _ => none
  | fuel + 1, input =>
    match skipSpace input with
    | some 'n' :: input => (word? "ull" input).map (.null, ·)
    | some 't' :: input => (word? "rue" input).map (.bool true, ·)
    | some 'f' :: input => (word? "alse" input).map (.bool false, ·)
    | some '-' :: input => number? true input
    | some '"' :: input =>
      (stringAfterQuote input).map fun (text, input) =>
        ((text.map Json.str).getD .illFormed, input)
    | some '[' :: input =>
      match skipSpace input with
      | some ']' :: input => some (.arr [], input)
      | input => (items? fuel [] input).map fun (items, input) => (.arr items, input)
    | some '\x7b' :: input =>
      match skipSpace input with
      | some '\x7d' :: input => some (.obj [], input)
      | input => (members? fuel [] input).map fun (members, input) => (object members, input)
    | input => number? false input

/-- The items of an array up to its closing bracket, after those of `done`. -/
def items? : (fuel : Nat) → (done : List Json) → Input → Option (List Json × Input)
  | 0, _, _ => none
  | fuel + 1, done, input =>
    match value? fuel input with
    | none => none
    | some (item, input) =>
      match skipSpace input with
      | some ',' :: input => items? fuel (item :: done) input
      | some ']' :: input => some ((item :: done).reverse, input)
      | _ => none

/-- The members of an object up to its closing brace, after those of `done`. -/
def members? : (fuel : Nat) → (done : List (Option String × Json)) → Input →
    Option (List (Option String × Json) × Input)
  | 0, _, _ => none
  | fuel + 1, done, input =>
    match skipSpace input with
    | some '"' :: input =>
      match stringAfterQuote input with
      | none => none
      | some (key, input) =>
        match skipSpace input with
        | some ':' :: input =>
          match value? fuel input with
          | none => none
          | some (value, input) =>
            match skipSpace input with
            | some ',' :: input => members? fuel ((key, value) :: done) input
            | some '\x7d' :: input => some (((key, value) :: done).reverse, input)
            | _ => none
        | _ => none
    | _ => none

end

/-- The value of a whole input. -/
def parseUnits? (input : Input) : Option Json :=
  match value? (input.length + 1) input with
  | some (value, rest) => if (skipSpace rest).isEmpty then some value else none
  | none => none

/-- The value of a text. -/
def parse? (text : String) : Option Json := parseUnits? (text.toList.map some)

/-- The value of a text given as bytes. -/
def parseBytes? (bytes : List UInt8) : Option Json := parseUnits? (Text.Utf8.decodeUnits bytes)

end BundleCoverage.Json
