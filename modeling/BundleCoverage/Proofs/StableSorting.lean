import Mathlib.Data.List.Basic

/-!
# Stable sorting

A stable sort takes the members of a list in their new order, and those that stand in it at the
same place in their old one.  Where no member is repeated, both orders are one relation on the
sorted list (`pairwise_mergeSort_of_nodup`).  The last member with some property can then be told
by what comes before it (`getLast?_filter_eq_some_iff`).
-/

namespace BundleCoverage

variable {α : Type} {xs : List α} {a b : α}

/-! ## Pairs of members -/

/-- Two members stand in a list without repetition in one order only. -/
theorem not_sublist_of_nodup (h : xs.Nodup) (hab : [a, b].Sublist xs) : ¬ [b, a].Sublist xs := by
  intro hba
  have hne : a ≠ b := by simpa using hab.nodup h
  obtain ⟨before, after, rfl, ha, hb⟩ := List.cons_sublist_iff.1 hab
  obtain ⟨-, -, hdisjoint⟩ := List.nodup_append.1 h
  have hb : b ∈ after := List.singleton_sublist.1 hb
  obtain ⟨first, rest, hsplit, hfirst, hrest⟩ := List.sublist_append_iff.1 hba
  cases first with
  | nil =>
      rw [List.nil_append] at hsplit
      exact hdisjoint a ha a (hrest.subset (by simp [← hsplit])) rfl
  | cons c first =>
      rw [List.cons_append, List.cons.injEq] at hsplit
      exact hdisjoint b (hfirst.subset (by simp [hsplit.1])) b hb rfl

/-- Two different members stand in a list in one order at least. -/
theorem sublist_or_sublist (ha : a ∈ xs) (hb : b ∈ xs) (hne : a ≠ b) :
    [a, b].Sublist xs ∨ [b, a].Sublist xs := by
  obtain ⟨before, after, rfl⟩ := List.append_of_mem ha
  rcases List.mem_append.1 hb with hbefore | hafter
  · have hpair := (List.singleton_sublist.2 hbefore).append
      (List.singleton_sublist.2 (List.mem_cons_self (a := a) (l := after)))
    exact .inr hpair
  · have hafter : b ∈ after := (List.mem_cons.1 hafter).resolve_left (Ne.symm hne)
    exact .inl (((List.singleton_sublist.2 hafter).cons_cons a).trans
      (List.sublist_append_right ..))

/-- The places of the members of a list ascend. -/
theorem pairwise_zipIdx (xs : List α) : xs.zipIdx.Pairwise (·.2 < ·.2) := by
  rw [List.pairwise_iff_getElem]
  intro i j _ _ hlt
  simpa using hlt

/-! ## Sorted lists -/

/-- Of two members of a sorted list, the earlier does not come after the other, and if the other
does not come after it either, the two were in this order before. -/
theorem pairwise_mergeSort_of_nodup (le : α → α → Bool) {r : α → α → Prop}
    (htrans : ∀ a b c, le a b → le b c → le a c) (htotal : ∀ a b, (le a b || le b a) = true)
    (hnodup : xs.Nodup) (hr : xs.Pairwise r) :
    (xs.mergeSort le).Pairwise fun a b => le a b ∧ (le b a → r a b) := by
  have hsorted : (xs.mergeSort le).Nodup := (List.mergeSort_perm xs le).nodup_iff.2 hnodup
  refine List.pairwise_iff_forall_sublist.2 fun {a b} hab => ⟨?_, fun hback => ?_⟩
  · exact List.pairwise_iff_forall_sublist.1 (List.pairwise_mergeSort htrans htotal xs) hab
  · have ha : a ∈ xs := List.mem_mergeSort.1 (hab.subset (by simp))
    have hb : b ∈ xs := List.mem_mergeSort.1 (hab.subset (by simp))
    have hne : a ≠ b := by simpa using hab.nodup hsorted
    rcases sublist_or_sublist ha hb hne with hbefore | hafter
    · exact List.pairwise_iff_forall_sublist.1 hr hbefore
    · -- sorting would have kept the two in the other order
      have hkept := List.pair_sublist_mergeSort htrans htotal hback hafter
      exact absurd hkept (not_sublist_of_nodup hsorted hab)

/-- The last member with a property is the one that has it and comes after all others that
have it. -/
theorem getLast?_filter_eq_some_iff {before : α → α → Prop} (h : xs.Pairwise before)
    (hasymm : ∀ a b, before a b → ¬ before b a) {p : α → Bool} :
    (xs.filter p).getLast? = some a ↔
      a ∈ xs ∧ p a ∧ ∀ b ∈ xs, p b → b ≠ a → before b a := by
  constructor
  · intro hlast
    obtain ⟨kept, hkept⟩ := List.getLast?_eq_some_iff.1 hlast
    have hfiltered := h.filter (p := p)
    rw [hkept] at hfiltered
    have hmem : a ∈ xs.filter p := List.mem_of_getLast? hlast
    refine ⟨(List.mem_filter.1 hmem).1, (List.mem_filter.1 hmem).2, fun b hb hpb hne => ?_⟩
    have hbkept : b ∈ kept ++ [a] := hkept ▸ List.mem_filter.2 ⟨hb, hpb⟩
    rcases List.mem_append.1 hbkept with hbkept | hbkept
    · exact (List.pairwise_append.1 hfiltered).2.2 b hbkept a (List.mem_singleton_self a)
    · exact absurd (List.mem_singleton.1 hbkept) hne
  · rintro ⟨hmem, hp, hlater⟩
    have hmem : a ∈ xs.filter p := List.mem_filter.2 ⟨hmem, hp⟩
    obtain ⟨first, rest, hsplit⟩ := List.append_of_mem hmem
    cases hrest : rest.getLast? with
    | none =>
        rw [List.getLast?_eq_none_iff.1 hrest] at hsplit
        rw [hsplit, List.getLast?_concat]
    | some b =>
        -- a member behind it would have to come before it
        have hb : b ∈ rest := List.mem_of_getLast? hrest
        have hbefore : before a b := by
          have hfiltered := h.filter (p := p)
          rw [hsplit] at hfiltered
          exact (List.pairwise_cons.1 (List.pairwise_append.1 hfiltered).2.1).1 b hb
        have hbmem := List.mem_filter.1 (hsplit ▸ List.mem_append_right first
          (List.mem_cons_of_mem a hb) : b ∈ xs.filter p)
        have hne : b ≠ a := by
          rintro rfl
          exact hasymm b b hbefore hbefore
        exact absurd (hlater b hbmem.1 hbmem.2 hne) (hasymm a b hbefore)

end BundleCoverage
