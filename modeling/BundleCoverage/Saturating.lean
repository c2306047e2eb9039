/-!
# Saturating sums

Offsets, lines and columns are 32-bit words and hit counts 64-bit words.  A sum that
does not fit is the largest word.
-/

namespace BundleCoverage

/-- The largest offset, line or column: the largest 32-bit word. -/
def maxWord : Nat := 4294967295

/-- The largest hit count: the largest 64-bit word. -/
def maxHits : Nat := 18446744073709551615

/-- The sum of two offsets, lines or columns. -/
def addWords (a b : Nat) : Nat := min (a + b) maxWord

/-- The sum of two hit counts. -/
def addHits (a b : Nat) : Nat := min (a + b) maxHits

theorem addHits_comm (a b : Nat) : addHits a b = addHits b a := by
  simp [addHits, Nat.add_comm]

theorem addHits_assoc (a b c : Nat) : addHits (addHits a b) c = addHits a (addHits b c) := by
  simp only [addHits]; omega

end BundleCoverage
