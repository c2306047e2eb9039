import BundleCoverage.Json.Read
import BundleCoverage.Text.Digits
import BundleCoverage.Yaml.Basic

/-!
# Reading YAML as typed values

A shape says what a value is read as.  Then its scalars have types, and the value becomes
a JSON value that is read further.  Every scalar can be read as a text; a number or a
truth value has to be plain.  A value that is left out is an empty list or record.
-/

namespace BundleCoverage

/-- What a value is read as. -/
inductive Shape where
  /-- A text. -/
  | text
  /-- A natural number. -/
  | number
  /-- A truth value. -/
  | truth
  /-- A value that may be null. -/
  | nullable (shape : Shape)
  /-- A list of values. -/
  | list (shape : Shape)
  /-- A record with fields of some names and shapes. -/
  | record (names : List Json.Names) (shapes : List Shape)

namespace Yaml

open Text

/-- A decimal number, without zeros in front. -/
def decimal? (digits : List Char) : Option Nat :=
  if 1 < digits.length && digits.head? = some '0' then none else digits? 10 digits

/-- The natural number that a plain scalar stands for. -/
def natural? (text : String) : Option Nat :=
  let digits := match text.toList with
    | '+' :: rest => rest
    | chars => chars
  match digits with
  | '0' :: 'x' :: rest => digits? 16 rest
  | '0' :: 'o' :: rest => digits? 8 rest
  | '0' :: 'b' :: rest => digits? 2 rest
  | _ => decimal? digits

/-- The truth value that a plain scalar stands for. -/
def truth? (text : String) : Option Bool :=
  if ["true", "True", "TRUE"].contains text then some true
  else if ["false", "False", "FALSE"].contains text then some false
  else none

/-- Whether a plain scalar stands for null. -/
def isNull (text : String) : Bool := ["", "~", "null", "Null", "NULL"].contains text

mutual

/-- A value read as a shape. -/
def readAs? : Shape → Yaml → Option Json
  | .text, .scalar _ t => some (.str t)
  | .number, .scalar true t => (natural? t).map Json.nat
  | .truth, .scalar true t => (truth? t).map Json.bool
  | .nullable shape, .scalar plain t =>
    if plain && isNull t then some .null else readAs? shape (.scalar plain t)
  | .nullable shape, value => readAs? shape value
  | .list shape, .seq items => (items.mapM (readAs? shape)).map Json.arr
  | .list _, .scalar true "" => some (.arr [])
  | .record names shapes, .map pairs => (pairs.mapM (readMember? names shapes)).map Json.obj
  | .record _ shapes, .seq items => (readItems? shapes items).map Json.arr
  | .record .., .scalar true "" => some (.obj [])
  | _, _ => none

/-- A member of a record.  A member with another name is passed over. -/
def readMember? : List Json.Names → List Shape → Yaml × Yaml → Option (String × Json)
  | names :: fields, shape :: shapes, (key, value) =>
    match key with
    | .scalar _ k =>
      if k ∈ names then (readAs? shape value).map (k, ·)
      else readMember? fields shapes (key, value)
    | _ => none
  | _, _, (.scalar _ k, _) => some (k, .null)
  | _, _, _ => none

/-- The fields of a record in order, and nulls for all that is left over. -/
def readItems? : List Shape → List Yaml → Option (List Json)
  | shape :: shapes, item :: items => do
    let value ← readAs? shape item
    let values ← readItems? shapes items
    return value :: values
  | [], items => some (items.map fun _ => .null)
  | _, [] => some []

end

end Yaml

end BundleCoverage
