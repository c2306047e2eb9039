import BundleCoverage.Proofs.Keyed
import BundleCoverage.Saturating

/-!
# Totals of hits

Hits come together from the counts of many entries.  `totalHits?` is what they come to:
the sum of the counts, cut off at the largest hit count, and nothing where there is no
count at all.  So it says of a line both whether it is there and how often it was hit.

Totals of parts are merged with `addHits` (`totalHits?_append`), and `foldl_hits` finds the
total that a fold has added.
-/

namespace BundleCoverage

instance : Std.Associative addHits := ⟨addHits_assoc⟩

instance : Std.Commutative addHits := ⟨addHits_comm⟩

theorem mergeHits_assoc (a b c : Option Nat) :
    Option.merge addHits (Option.merge addHits a b) c
      = Option.merge addHits a (Option.merge addHits b c) :=
  (Option.associative_merge addHits).assoc a b c

theorem mergeHits_comm (a b : Option Nat) :
    Option.merge addHits a b = Option.merge addHits b a :=
  (Option.commutative_merge addHits).comm a b

/-- A sum that is cut off already adds like the one it was cut from. -/
@[simp] theorem addHits_addHits_zero (a b : Nat) : addHits a (addHits 0 b) = addHits a b := by
  simp only [addHits]
  omega

/-- The sum of some counts, at most the largest hit count, if there is any count. -/
def totalHits? : List Nat → Option Nat
  | [] => none
  | count :: counts => some (min ((count :: counts).foldr (· + ·) 0) maxHits)

theorem totalHits?_singleton (count : Nat) : totalHits? [count] = some (addHits 0 count) := by
  simp [totalHits?, addHits]

/-- Hits that are added, or not, to those of what may be there already. -/
theorem map_hits_ite {α : Type} {view : α → Nat} {old : Option α} {changed : α} {hits : Nat}
    (hchanged : view changed = addHits ((old.map view).getD 0) hits) (p : Prop) [Decidable p] :
    (if p then some changed else old).map view
      = Option.merge addHits (old.map view) (totalHits? (if p then [hits] else [])) := by
  by_cases h : p
  · rw [if_pos h, if_pos h, totalHits?_singleton, Option.map_some, hchanged]
    cases old with
    | none => rfl
    | some a => simp
  · rw [if_neg h, if_neg h, totalHits?, Option.merge_none_right]

theorem totalHits?_cons (count : Nat) (counts : List Nat) :
    totalHits? (count :: counts)
      = Option.merge addHits (totalHits? [count]) (totalHits? counts) := by
  cases counts with
  | nil => rfl
  | cons next counts =>
      simp only [totalHits?, List.foldr_cons, List.foldr_nil, Option.merge_some_some,
        Option.some.injEq, addHits]
      omega

theorem totalHits?_append (a b : List Nat) :
    totalHits? (a ++ b) = Option.merge addHits (totalHits? a) (totalHits? b) := by
  induction a with
  | nil => simp [totalHits?]
  | cons count a ih =>
      rw [List.cons_append, totalHits?_cons, ih, totalHits?_cons count a, mergeHits_assoc]

/-- There is a total where there is a count. -/
theorem isSome_totalHits? (counts : List Nat) :
    (totalHits? counts).isSome ↔ ∃ count, count ∈ counts := by
  cases counts with
  | nil => simp [totalHits?]
  | cons count counts => exact ⟨fun _ => ⟨count, List.mem_cons_self ..⟩, fun _ => rfl⟩

theorem isSome_totalHits?_flatMap {α : Type} (xs : List α) (part : α → List Nat) :
    (totalHits? (xs.flatMap part)).isSome ↔ ∃ a ∈ xs, ∃ count, count ∈ part a := by
  simp only [isSome_totalHits?, List.mem_flatMap]
  constructor
  · rintro ⟨count, a, ha, hcount⟩
    exact ⟨a, ha, count, hcount⟩
  · rintro ⟨a, ha, count, hcount⟩
    exact ⟨count, a, ha, hcount⟩

/-- If every step adds some counts to the view, the fold adds their total. -/
theorem foldl_hits {σ α : Type} (step : σ → α → σ) (view : σ → Option Nat) (part : α → List Nat)
    (hstep : ∀ s a, view (step s a) = Option.merge addHits (view s) (totalHits? (part a)))
    (xs : List α) (s : σ) :
    view (xs.foldl step s) = Option.merge addHits (view s) (totalHits? (xs.flatMap part)) := by
  induction xs generalizing s with
  | nil => simp [totalHits?]
  | cons a xs ih =>
      rw [List.foldl_cons, ih, hstep, List.flatMap_cons, totalHits?_append, mergeHits_assoc]

end BundleCoverage
