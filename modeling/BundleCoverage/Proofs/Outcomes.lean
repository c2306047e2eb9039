import Mathlib.Data.List.Forall2

/-!
# Steps that can fail

A chain of steps succeeds if each of its steps does.  The lemmas take such a chain apart, for a
sequence of two steps, a step followed by a function, and one step for each member of a list.
The step for each member may also be one that says nothing about why it fails.  What one step
keeps is then kept for all members (`forall_of_forall₂`).
-/

namespace BundleCoverage

variable {ε ε' α β : Type}

theorem bind_eq_ok_iff {x : Except ε α} {f : α → Except ε β} {b : β} :
    (x >>= f) = .ok b ↔ ∃ a, x = .ok a ∧ f a = .ok b := by
  cases x with
  | error e =>
      refine iff_of_false (fun h => by cases h) ?_
      rintro ⟨a, h, -⟩
      cases h
  | ok a =>
      constructor
      · intro h
        exact ⟨a, rfl, h⟩
      · rintro ⟨a', ha, h⟩
        cases ha
        exact h

theorem map_eq_ok_iff {x : Except ε α} {f : α → β} {b : β} :
    x.map f = .ok b ↔ ∃ a, x = .ok a ∧ f a = b := by
  cases x with
  | error e => simp [Except.map]
  | ok a => simp [Except.map]

theorem mapError_eq_ok_iff {x : Except ε α} {f : ε → ε'} {a : α} :
    x.mapError f = .ok a ↔ x = .ok a := by
  cases x with
  | error e => simp [Except.mapError]
  | ok a => simp [Except.mapError]

theorem toOption_eq_some_iff {x : Except ε α} {a : α} : x.toOption = some a ↔ x = .ok a := by
  cases x with
  | error e => simp [Except.toOption]
  | ok a => simp [Except.toOption]

theorem mapM_eq_ok_iff {f : α → Except ε β} {as : List α} {bs : List β} :
    as.mapM f = .ok bs ↔ List.Forall₂ (fun a b => f a = .ok b) as bs := by
  induction as generalizing bs with
  | nil =>
      rw [List.mapM_nil, List.forall₂_nil_left_iff]
      exact ⟨fun h => (Except.ok.inj h).symm, fun h => h ▸ rfl⟩
  | cons a as ih =>
      rw [List.mapM_cons, bind_eq_ok_iff, List.forall₂_cons_left_iff]
      constructor
      · rintro ⟨b, hb, h⟩
        obtain ⟨bs', hbs, h⟩ := bind_eq_ok_iff.1 h
        exact ⟨b, bs', hb, ih.1 hbs, (Except.ok.inj h).symm⟩
      · rintro ⟨b, bs', hb, hbs, rfl⟩
        exact ⟨b, hb, bind_eq_ok_iff.2 ⟨bs', ih.2 hbs, rfl⟩⟩

theorem mapM_eq_some_iff {f : α → Option β} {as : List α} {bs : List β} :
    as.mapM f = some bs ↔ List.Forall₂ (fun a b => f a = some b) as bs := by
  induction as generalizing bs with
  | nil =>
      rw [List.mapM_nil, List.forall₂_nil_left_iff]
      exact ⟨fun h => (Option.some.inj h).symm, fun h => h ▸ rfl⟩
  | cons a as ih =>
      rw [List.mapM_cons, List.forall₂_cons_left_iff]
      constructor
      · intro h
        obtain ⟨b, hb, h⟩ := Option.bind_eq_some_iff.1 h
        obtain ⟨bs', hbs, h⟩ := Option.bind_eq_some_iff.1 h
        exact ⟨b, bs', hb, ih.1 hbs, (Option.some.inj h).symm⟩
      · rintro ⟨b, bs', hb, hbs, rfl⟩
        exact Option.bind_eq_some_iff.2 ⟨b, hb, Option.bind_eq_some_iff.2 ⟨bs', ih.2 hbs, rfl⟩⟩

/-! ## Results member by member -/

theorem forall_of_forall₂ {r : α → β → Prop} {p : α → Prop} {q : β → Prop}
    {as : List α} {bs : List β} (h : List.Forall₂ r as bs) (hpq : ∀ a b, r a b → p a → q b)
    (hp : ∀ a ∈ as, p a) : ∀ b ∈ bs, q b := by
  induction h with
  | nil =>
      intro b hb
      cases hb
  | cons hab hrest ih =>
      obtain ⟨ha, has⟩ := List.forall_mem_cons.1 hp
      exact List.forall_mem_cons.2 ⟨hpq _ _ hab ha, ih has⟩

theorem forall_mem_of_forall₂ {r : α → β → Prop} {q : β → Prop} {as : List α}
    {bs : List β} (h : List.Forall₂ r as bs) (hq : ∀ a b, r a b → q b) : ∀ b ∈ bs, q b :=
  forall_of_forall₂ (p := fun _ => True) h (fun a b hab _ => hq a b hab) fun _ _ => trivial

end BundleCoverage
