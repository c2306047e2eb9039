import BundleCoverage.Json.Basic

/-!
# Reading typed values

A reader takes a JSON value apart and gives `none` for a value of another shape.

A record is an object or an array of its fields in order.  In an object, members
with other names are passed over and a repeated name is an error.  In an array,
fields at the end may be missing.  `record?` gives the value of each field that is
present; `required` and `orElse` say what a missing field means.
-/

namespace BundleCoverage.Json

/-- A reader of values. -/
abbrev Reader (α : Type) := Json → Option α

/-- A truth value. -/
def toBool? : Reader Bool
  | .bool b => some b
  | _ => none

/-- A text. -/
def toText? : Reader String
  | .str s => some s
  | _ => none

/-- A natural number below a bound. -/
def toNatBelow? (bound : Nat) : Reader Nat
  | .int n => if 0 ≤ n ∧ n < bound then some n.toNat else none
  | _ => none

/-- A 32-bit word. -/
def toWord? (value : Json) : Option UInt32 := (toNatBelow? 4294967296 value).map UInt32.ofNat

/-- A value or `null`. -/
def toOption? {α : Type} (read : Reader α) : Reader (Option α)
  | .null => some none
  | value => (read value).map some

/-- An array of values. -/
def toList? {α : Type} (read : Reader α) : Reader (List α)
  | .arr items => items.mapM read
  | _ => none

/-! ## Records -/

/-- The names of a field: the first is the one it is written with. -/
abbrev Names := List String

/-- A value put into the first field that has a name, unless the field is taken. -/
def fill (key : String) (value : Json) :
    List Names → List (Option Json) → Option (List (Option Json))
  | names :: fields, slot :: slots =>
    if key ∈ names then
      match slot with
      | none => some (some value :: slots)
      | some _ => none
    else (fill key value fields slots).map (slot :: ·)
  | _, slots => some slots

/-- The values of the fields of a record, each `none` if it is missing. -/
def record? (fields : List Names) : Reader (List (Option Json))
  | .obj members =>
    members.foldlM (fun slots (key, value) => fill key value fields slots)
      (List.replicate fields.length none)
  | .arr items =>
    if items.length ≤ fields.length then
      some (items.map some ++ List.replicate (fields.length - items.length) none)
    else none
  | _ => none

/-- A field that has to be present. -/
def required {α : Type} (read : Reader α) (slot : Option Json) : Option α := slot.bind read

/-- A field with a value for when it is missing. -/
def orElse {α : Type} (default : α) (read : Reader α) : Option Json → Option α
  | none => some default
  | some value => read value

end BundleCoverage.Json
