import Std.Data.ExtTreeMap.Basic

/-!
# JSON values

An object keeps its members in the order they were written, repeated keys included.
A number that is an integer is kept as one, any other by its literal.

An object that is built member by member has them in the order of their keys, and a member
takes the place of an earlier one with its key (`ofMembers`).

A string literal may hold half of a surrogate pair, or a byte that is no character.
It denotes no text, and an object with such a key has no readable members.  Both
are `illFormed`: allowed where a value is passed over, refused where it is read.
-/

namespace BundleCoverage

/-- A JSON value. -/
inductive Json where
  | null
  | bool (value : Bool)
  | int (value : Int)
  /-- A number written with a fraction or an exponent, or a negative zero. -/
  | real (literal : String)
  | str (text : String)
  | arr (items : List Json)
  | obj (members : List (String × Json))
  /-- A value whose text cannot be read. -/
  | illFormed
deriving Repr, BEq, Inhabited

namespace Json

/-- A natural number as a value. -/
def nat (n : Nat) : Json := .int n

/-- A value that may be missing, with `null` for none. -/
def ofOption {α : Type} (f : α → Json) : Option α → Json
  | none => .null
  | some a => f a

/-- An array. -/
def list {α : Type} (f : α → Json) (items : List α) : Json := .arr (items.map f)

/-- The object of some members. -/
def ofMembers (members : List (String × Json)) : Json := .obj (Std.ExtTreeMap.ofList members).toList

/-- The first member of an object with a key. -/
def get? (key : String) : Json → Option Json
  | .obj members => members.lookup key
  | _ => none

end Json

end BundleCoverage
