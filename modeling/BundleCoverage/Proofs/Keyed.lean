import Std.Data.ExtTreeMap.Lemmas

/-!
# Folds seen through a view

A merge is a chain of folds, and each of them changes a large state piece by piece.  A view
of the state is small: the value under one key, or the hits of one line.  It changes in a
simple way at every step, and these lemmas carry a rule for one step over to the fold.

`foldl_merge` is for values that are merged, `foldl_append` for lists that grow,
`foldl_perm` for steps that can be swapped, and `foldl_toList` for a fold over the entries of
a map, of which a key meets only its own.

`EachValue` says something of all values of a map, and `KeepsValues` compares two maps key by
key.  Both go along with a change under one key.
-/

namespace BundleCoverage

open Std

/-- A map that keeps an operation keeps its merges. -/
theorem map_merge {α β : Type} {f : α → β} {op : α → α → α} {op' : β → β → β}
    (hop : ∀ a b, f (op a b) = op' (f a) (f b)) (a b : Option α) :
    (Option.merge op a b).map f = Option.merge op' (a.map f) (b.map f) := by
  cases a with
  | none => simp
  | some a =>
      cases b with
      | none => rfl
      | some b => simp [hop]

section Views

variable {σ α β : Type} (step : σ → α → σ)

/-- If every step merges a part into the view, the fold merges all parts in order. -/
theorem foldl_merge (op : β → β → β) (view : σ → Option β) (part : α → Option β)
    (hstep : ∀ s a, view (step s a) = Option.merge op (view s) (part a)) (xs : List α) (s : σ) :
    view (xs.foldl step s) = (xs.map part).foldl (Option.merge op) (view s) := by
  induction xs generalizing s with
  | nil => rfl
  | cons a xs ih => rw [List.foldl_cons, ih, hstep, List.map_cons, List.foldl_cons]

/-- If every step appends at most one value to the view, the fold appends all of them in
order. -/
theorem foldl_append (view : σ → List β) (part? : α → Option β)
    (hstep : ∀ s a, view (step s a) = view s ++ (part? a).toList) (xs : List α) (s : σ) :
    view (xs.foldl step s) = view s ++ xs.filterMap part? := by
  induction xs generalizing s with
  | nil => simp
  | cons a xs ih =>
      rw [List.foldl_cons, ih, hstep, List.append_assoc, List.filterMap_cons]
      cases part? a with
      | none => rfl
      | some b => rfl

/-- If no step changes the view, the fold does not. -/
theorem foldl_frame (view : σ → β) (xs : List α)
    (hstep : ∀ s, ∀ a ∈ xs, view (step s a) = view s) (s : σ) :
    view (xs.foldl step s) = view s := by
  induction xs generalizing s with
  | nil => rfl
  | cons a xs ih =>
      rw [List.foldl_cons, ih fun s b hb => hstep s b (List.mem_cons_of_mem a hb)]
      exact hstep s a (List.mem_cons_self ..)

/-- If the changes that two steps make to the view can be swapped, the view does not see the
order of the steps. -/
theorem foldl_perm (view : σ → β) (change : β → α → β)
    (hstep : ∀ s a, view (step s a) = change (view s) a)
    (hswap : ∀ v a b, change (change v a) b = change (change v b) a) {xs ys : List α}
    (h : xs.Perm ys) (s : σ) :
    view (xs.foldl step s) = view (ys.foldl step s) := by
  have hview (zs : List α) : view (zs.foldl step s) = zs.foldl change (view s) :=
    (List.foldl_hom view fun s a => (hstep s a).symm).symm
  rw [hview, hview]
  exact h.foldl_eq' (fun a _ b _ v => hswap v a b) (view s)

end Views

section Keys

variable {κ ν σ β : Type} [Ord κ] [TransOrd κ] [LawfulEqOrd κ]

/-- The entries of a map are found under their keys: what stands before and after the entry
of a key has other keys. -/
theorem toList_split {m : ExtTreeMap κ ν} {k : κ} {v : ν} (h : m[k]? = some v) :
    ∃ before after, m.toList = before ++ (k, v) :: after ∧
      (∀ e ∈ before, e.1 ≠ k) ∧ ∀ e ∈ after, e.1 ≠ k := by
  have hmem : (k, v) ∈ m.toList := ExtTreeMap.mem_toList_iff_getElem?_eq_some.2 h
  obtain ⟨before, after, hlist⟩ := List.append_of_mem hmem
  have hdistinct := ExtTreeMap.distinct_keys_toList (t := m)
  rw [hlist, List.pairwise_append, List.pairwise_cons] at hdistinct
  obtain ⟨-, ⟨hafter, -⟩, hbefore⟩ := hdistinct
  refine ⟨before, after, hlist, fun e he hk => ?_, fun e he hk => ?_⟩
  · exact hbefore e he (k, v) (List.mem_cons_self ..) (LawfulEqOrd.compare_eq_iff_eq.2 hk)
  · exact hafter e he (LawfulEqOrd.compare_eq_iff_eq.2 hk.symm)

/-- A fold over the entries of a map, seen through a view that only the entry of one key
changes. -/
theorem foldl_toList (step : σ → κ × ν → σ) (view : σ → β) (k : κ) (change : β → ν → β)
    (hother : ∀ s e, e.1 ≠ k → view (step s e) = view s)
    (hown : ∀ s v, view (step s (k, v)) = change (view s) v) (m : ExtTreeMap κ ν) (s : σ) :
    view (m.toList.foldl step s) = m[k]?.elim (view s) (change (view s)) := by
  cases h : m[k]? with
  | none =>
      -- no entry has the key
      refine foldl_frame step view m.toList (fun s e he => hother s e fun hk => ?_) s
      have hval : m[e.1]? = some e.2 := ExtTreeMap.mem_toList_iff_getElem?_eq_some.1 he
      rw [hk, h] at hval
      cases hval
  | some v =>
      -- one entry has it, and the others before and after leave the view alone
      obtain ⟨before, after, hlist, hbefore, hafter⟩ := toList_split h
      rw [hlist, List.foldl_append, List.foldl_cons,
        foldl_frame step view after fun s e he => hother s e (hafter e he), hown,
        foldl_frame step view before fun s e he => hother s e (hbefore e he)]
      rfl

/-- What was made of the value of each key is found under the key. -/
theorem lookup_map_toList [BEq κ] [LawfulBEq κ] (f : κ → ν → β) (m : ExtTreeMap κ ν) (k : κ) :
    (m.toList.map fun e => (e.1, f e.1 e.2)).lookup k = m[k]?.map (f k) := by
  cases h : m[k]? with
  | none =>
      refine List.lookup_eq_none_iff.2 fun entry hentry => ?_
      obtain ⟨e, he, rfl⟩ := List.mem_map.1 hentry
      have hval : m[e.1]? = some e.2 := ExtTreeMap.mem_toList_iff_getElem?_eq_some.1 he
      rw [bne_iff_ne]
      rintro rfl
      rw [hval] at h
      cases h
  | some v =>
      obtain ⟨before, after, hlist, hbefore, -⟩ := toList_split h
      rw [hlist, List.map_append, List.map_cons]
      refine List.lookup_eq_some_iff.2 ⟨_, _, rfl, fun entry hentry => ?_⟩
      obtain ⟨e, he, rfl⟩ := List.mem_map.1 hentry
      exact bne_iff_ne.2 (hbefore e he).symm

/-- What stands under a key after a change under some key. -/
theorem getElem?_alter_eq [DecidableEq κ] (m : ExtTreeMap κ ν) (k k' : κ)
    (f : Option ν → Option ν) :
    (m.alter k f)[k']? = if k = k' then f m[k]? else m[k']? := by
  rw [ExtTreeMap.getElem?_alter]
  simp only [LawfulEqOrd.compare_eq_iff_eq]

/-- A chain of changes under several keys, seen under one of them. -/
theorem getElem?_foldl_alter {α : Type} [DecidableEq κ] (key : α → κ) (change : Option ν → α → ν)
    (k : κ) (xs : List α) (m : ExtTreeMap κ ν) :
    (xs.foldl (fun m a => m.alter (key a) fun old => some (change old a)) m)[k]?
      = (xs.filter (key · = k)).foldl (fun old a => some (change old a)) m[k]? := by
  induction xs generalizing m with
  | nil => rfl
  | cons a xs ih =>
      rw [List.foldl_cons, ih, getElem?_alter_eq]
      by_cases h : key a = k
      · rw [if_pos h, List.filter_cons_of_pos (by simpa using h), List.foldl_cons, h]
      · rw [if_neg h, List.filter_cons_of_neg (by simpa using h)]

end Keys

/-! ## Maps that keep their values -/

section Values

variable {κ ν : Type} [Ord κ] [TransOrd κ]

/-- Every value of a map has a property. -/
def EachValue (P : ν → Prop) (m : ExtTreeMap κ ν) : Prop := ∀ (k : κ) v, m[k]? = some v → P v

/-- Every value of a map stands under its key in another map, or what it became does. -/
def KeepsValues (R : ν → ν → Prop) (m m' : ExtTreeMap κ ν) : Prop :=
  ∀ (k : κ) v, m[k]? = some v → ∃ v', m'[k]? = some v' ∧ R v v'

variable {P : ν → Prop} {R : ν → ν → Prop} {m m' m'' : ExtTreeMap κ ν}

theorem EachValue.empty : EachValue P (∅ : ExtTreeMap κ ν) := by
  intro k v h
  simp at h

theorem KeepsValues.refl (hR : ∀ v, R v v) (m : ExtTreeMap κ ν) : KeepsValues R m m :=
  fun _ v hv => ⟨v, hv, hR v⟩

theorem KeepsValues.trans (hR : ∀ {a b c}, R a b → R b c → R a c) (h : KeepsValues R m m')
    (h' : KeepsValues R m' m'') : KeepsValues R m m'' := by
  intro k v hv
  obtain ⟨v', hv', hrel⟩ := h k v hv
  obtain ⟨v'', hv'', hrel'⟩ := h' k v' hv'
  exact ⟨v'', hv'', hR hrel hrel'⟩

variable [LawfulEqOrd κ] [DecidableEq κ] {k : κ} {change : Option ν → ν}

/-- What holds of each key with its value still does after a change under one key. -/
theorem forall_getElem?_alter {Q : κ → ν → Prop} (h : ∀ k v, m[k]? = some v → Q k v)
    (hchange : Q k (change m[k]?)) (k' : κ) (v : ν)
    (hv : (m.alter k fun old => some (change old))[k']? = some v) : Q k' v := by
  rw [getElem?_alter_eq] at hv
  by_cases hk : k = k'
  · subst hk
    rw [if_pos rfl] at hv
    cases hv
    exact hchange
  · rw [if_neg hk] at hv
    exact h k' v hv

theorem EachValue.alter (h : EachValue P m) (hchange : P (change m[k]?)) :
    EachValue P (m.alter k fun old => some (change old)) :=
  forall_getElem?_alter (Q := fun _ => P) h hchange

theorem KeepsValues.alter (hR : ∀ v, R v v)
    (hchange : ∀ v, m[k]? = some v → R v (change (some v))) :
    KeepsValues R m (m.alter k fun old => some (change old)) := by
  intro k' v hv
  rw [getElem?_alter_eq]
  by_cases hk : k = k'
  · subst hk
    rw [if_pos rfl, hv]
    exact ⟨_, rfl, hchange v hv⟩
  · rw [if_neg hk]
    exact ⟨v, hv, hR v⟩

end Values

end BundleCoverage
