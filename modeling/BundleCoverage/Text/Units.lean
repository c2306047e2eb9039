/-!
# UTF-16 code units

Script offsets and source map columns count UTF-16 code units: one for each
character of the basic plane and two for every other.
-/

namespace BundleCoverage.Text

/-- The number of UTF-16 code units of a character. -/
def unitWidth (c : Char) : Nat := if c.toNat < 0x10000 then 1 else 2

/-- The number of UTF-16 code units of a text. -/
def unitLength : List Char → Nat
  | [] => 0
  | c :: text => unitWidth c + unitLength text

theorem unitLength_append (a b : List Char) :
    unitLength (a ++ b) = unitLength a + unitLength b := by
  induction a with
  | nil => simp [unitLength]
  | cons c a ih => simp [unitLength, ih, Nat.add_assoc]

end BundleCoverage.Text
