import BundleCoverage.Proofs.Keyed

/-!
# Padded maps

A map is padded to another one if each of its values stands under its key in the other, or what
it became does, and what the other has under new keys is worth nothing.  The same change made
to both keeps them so (`Pads.alter`).

`Pads.exists_pairs` reads the values of two such maps as pairs and as what is new.  It is how
counts over all values are compared.
-/

namespace BundleCoverage

open Std

section Maps

variable {κ ν : Type} [Ord κ] [TransOrd κ]

/-- The second map has the values of the first, up to `R`, and under other keys only values
with `N`. -/
structure Pads (R : ν → ν → Prop) (N : ν → Prop) (m m' : ExtTreeMap κ ν) : Prop where
  /-- The values of the first map. -/
  keeps : KeepsValues R m m'
  /-- The values under other keys. -/
  new : ∀ (k : κ) v', m[k]? = none → m'[k]? = some v' → N v'

variable {R : ν → ν → Prop} {N : ν → Prop} {m m' : ExtTreeMap κ ν}

theorem Pads.refl (hR : ∀ v, R v v) (m : ExtTreeMap κ ν) : Pads R N m m where
  keeps := .refl hR m
  new k v' hnone hsome := by
    rw [hnone] at hsome
    cases hsome

/-- The empty map is padded with worthless values. -/
theorem EachValue.pads (h : EachValue N m') : Pads R N ∅ m' where
  keeps k v hv := by simp at hv
  new k v' _ hsome := h k v' hsome

/-- The same change of both maps keeps one padded to the other. -/
theorem Pads.alter [LawfulEqOrd κ] [DecidableEq κ] {k : κ} {change change' : Option ν → ν}
    (h : Pads R N m m') (hkept : ∀ v v', R v v' → R (change (some v)) (change' (some v')))
    (hnew : ∀ v', N v' → R (change none) (change' (some v')))
    (hnone : R (change none) (change' none)) :
    Pads R N (m.alter k fun old => some (change old))
      (m'.alter k fun old => some (change' old)) where
  keeps q v hv := by
    rw [getElem?_alter_eq] at hv ⊢
    by_cases hq : k = q
    · rw [if_pos hq] at hv ⊢
      cases hv
      refine ⟨_, rfl, ?_⟩
      cases hold : m[k]? with
      | some v =>
          obtain ⟨v', hv', hrel⟩ := h.keeps k v hold
          rw [hv']
          exact hkept v v' hrel
      | none =>
          cases hold' : m'[k]? with
          | some v' => exact hnew v' (h.new k v' hold hold')
          | none => exact hnone
    · rw [if_neg hq] at hv ⊢
      exact h.keeps q v hv
  new q v' hq hq' := by
    rw [getElem?_alter_eq] at hq hq'
    by_cases heq : k = q
    · rw [if_pos heq] at hq
      cases hq
    · rw [if_neg heq] at hq hq'
      exact h.new q v' hq hq'

end Maps

/-! ## All values -/

section Values

variable {κ ν : Type} {R : ν → ν → Prop} {N : ν → Prop}

/-- Entries with distinct keys, each of which has its key among others: those of the others
without a partner are new. -/
theorem exists_pairs_of_entries {xs ys : List (κ × ν)} (hxs : xs.Pairwise (·.1 ≠ ·.1))
    (hys : ys.Pairwise (·.1 ≠ ·.1)) (hkept : ∀ e ∈ xs, ∃ v', (e.1, v') ∈ ys ∧ R e.2 v')
    (hnew : ∀ e ∈ ys, (∀ e' ∈ xs, e'.1 ≠ e.1) → N e.2) :
    ∃ (pairs : List (ν × ν)) (new : List ν), xs.map (·.2) = pairs.map (·.1) ∧
      (ys.map (·.2)).Perm (pairs.map (·.2) ++ new) ∧ (∀ p ∈ pairs, R p.1 p.2) ∧ ∀ v ∈ new, N v := by
  induction xs generalizing ys with
  | nil =>
      refine ⟨[], ys.map (·.2), rfl, .refl _, by simp, ?_⟩
      intro v hv
      obtain ⟨e, he, rfl⟩ := List.mem_map.1 hv
      exact hnew e he (by simp)
  | cons x xs ih =>
      obtain ⟨k, v⟩ := x
      obtain ⟨v', hmem, hrel⟩ := hkept (k, v) (List.mem_cons_self ..)
      obtain ⟨before, after, rfl⟩ := List.append_of_mem hmem
      rw [List.pairwise_cons] at hxs
      -- the partner comes to the front, and the rest have other keys
      have hperm : (before ++ (k, v') :: after).Perm ((k, v') :: (before ++ after)) :=
        List.perm_middle
      have hys' := (hperm.pairwise_iff fun hne => hne.symm).1 hys
      rw [List.pairwise_cons] at hys'
      have hkept' : ∀ e ∈ xs, ∃ v', (e.1, v') ∈ before ++ after ∧ R e.2 v' := by
        intro e he
        obtain ⟨v'', hmem', hrel'⟩ := hkept e (List.mem_cons_of_mem _ he)
        rcases List.mem_cons.1 (hperm.mem_iff.1 hmem') with heq | hrest
        · exact absurd (congrArg Prod.fst heq).symm (hxs.1 e he)
        · exact ⟨v'', hrest, hrel'⟩
      have hnew' : ∀ e ∈ before ++ after, (∀ e' ∈ xs, e'.1 ≠ e.1) → N e.2 := by
        intro e he hother
        refine hnew e (hperm.mem_iff.2 (List.mem_cons_of_mem _ he)) ?_
        rintro e' (_ | ⟨_, he'⟩)
        · exact hys'.1 e he
        · exact hother e' he'
      obtain ⟨pairs, new, hpairs, hvalues, hR, hN⟩ := ih hxs.2 hys'.2 hkept' hnew'
      refine ⟨(v, v') :: pairs, new, by simp [hpairs], ?_, ?_, hN⟩
      · exact (hperm.map _).trans (hvalues.cons v')
      · rintro p (_ | ⟨_, hp⟩)
        · exact hrel
        · exact hR p hp

variable [Ord κ] [TransOrd κ]

theorem values_eq_map_toList (m : ExtTreeMap κ ν) : m.values = m.toList.map (·.2) := by
  obtain ⟨inner⟩ := m
  induction inner using ExtDTreeMap.inductionOn with
  | mk m =>
      show m.inner.values = (DTreeMap.Internal.Impl.Const.toList m.inner).map (·.2)
      rw [DTreeMap.Internal.Impl.values_eq_map_snd,
        DTreeMap.Internal.Impl.Const.toList_eq_toListModel_map, List.map_map]
      rfl

variable [LawfulEqOrd κ] {m m' : ExtTreeMap κ ν}

theorem pairwise_ne_toList (m : ExtTreeMap κ ν) : m.toList.Pairwise (·.1 ≠ ·.1) := by
  refine ExtTreeMap.distinct_keys_toList.imp ?_
  intro a b hne heq
  exact hne (LawfulEqOrd.compare_eq_iff_eq.2 heq)

/-- The values of a map and those of one it is padded to: pairs, and values that are new. -/
theorem Pads.exists_pairs (h : Pads R N m m') :
    ∃ (pairs : List (ν × ν)) (new : List ν), m.values = pairs.map (·.1) ∧
      m'.values.Perm (pairs.map (·.2) ++ new) ∧ (∀ p ∈ pairs, R p.1 p.2) ∧ ∀ v ∈ new, N v := by
  rw [values_eq_map_toList, values_eq_map_toList]
  refine exists_pairs_of_entries (pairwise_ne_toList m) (pairwise_ne_toList m') ?_ ?_
  · intro e he
    obtain ⟨v', hv', hrel⟩ := h.keeps e.1 e.2 (ExtTreeMap.mem_toList_iff_getElem?_eq_some.1 he)
    exact ⟨v', ExtTreeMap.mem_toList_iff_getElem?_eq_some.2 hv', hrel⟩
  · intro e he hother
    refine h.new e.1 e.2 ?_ (ExtTreeMap.mem_toList_iff_getElem?_eq_some.1 he)
    cases hold : m[e.1]? with
    | none => rfl
    | some v =>
        have hmem : (e.1, v) ∈ m.toList := ExtTreeMap.mem_toList_iff_getElem?_eq_some.2 hold
        exact absurd rfl (hother (e.1, v) hmem)

end Values

end BundleCoverage
