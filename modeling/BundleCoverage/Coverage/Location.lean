import Std.Data.ExtTreeMap.Basic

/-!
# Locations

A position is a line, counted from one, and a column, counted from zero.  A location is a
stretch between two positions.  Both are ordered by their parts, the first part first.
-/

namespace BundleCoverage

/-- A position in a source. -/
structure Position where
  /-- The line, from one. -/
  line : Nat
  /-- The column, from zero. -/
  column : Nat
deriving Repr, DecidableEq, Inhabited

/-- A stretch of a source. -/
structure Location where
  /-- The first position. -/
  start : Position
  /-- The last position. -/
  stop : Position
deriving Repr, DecidableEq, Inhabited

instance : Ord Position := ⟨compareLex (compareOn Position.line) (compareOn Position.column)⟩

instance : Std.TransOrd Position :=
  inferInstanceAs (Std.TransCmp (compareLex (compareOn Position.line) (compareOn Position.column)))

instance : Std.LawfulEqOrd Position where
  eq_of_compare {a b} h := by
    have hparts : (compare a.line b.line).then (compare a.column b.column) = .eq := h
    rw [Ordering.then_eq_eq, Nat.compare_eq_eq, Nat.compare_eq_eq] at hparts
    cases a
    cases b
    simp_all

instance : Ord Location := ⟨compareLex (compareOn Location.start) (compareOn Location.stop)⟩

instance : Std.TransOrd Location :=
  inferInstanceAs (Std.TransCmp (compareLex (compareOn Location.start) (compareOn Location.stop)))

instance : Std.LawfulEqOrd Location where
  eq_of_compare {a b} h := by
    have hparts : (compare a.start b.start).then (compare a.stop b.stop) = .eq := h
    rw [Ordering.then_eq_eq, Std.LawfulEqOrd.compare_eq_iff_eq,
      Std.LawfulEqOrd.compare_eq_iff_eq] at hparts
    cases a
    cases b
    simp_all

/-- Some columns of one line. -/
def Location.onLine (line start stop : Nat) : Location := ⟨⟨line, start⟩, ⟨line, stop⟩⟩

end BundleCoverage
