import Mathlib.Data.List.ReduceOption
import BundleCoverage.Json.Read
import BundleCoverage.Proofs.Outcomes

/-!
# Respelled records

An object can be spelled in several ways.  Its members stand in any order, among others that no
field knows (`Spells`), and a member may be left out where its field has a default (`Written`).

A record is read field by field.  The value of a field is that of the only member that it knows, so
all spellings are read alike (`record?_of_spells`).
-/

namespace BundleCoverage.Json

/-- A member of an object. -/
abbrev Member := String × Json

/-- Whether a value is an object with some members, in any order, and with others that no field
knows. -/
def Spells (fields : List Names) (members : List (Option Member)) (value : Json) : Prop :=
  ∃ all unknown, value = .obj all ∧ all.Perm (members.reduceOption ++ unknown) ∧
    ∀ m ∈ unknown, ∀ names ∈ fields, m.1 ∉ names

/-- Whether a member has a key and a value of some form.  It may be left out under a condition. -/
inductive Written (key : String) (form : Json → Prop) (leave : Prop) : Option Member → Prop
  | here {value : Json} : form value → Written key form leave (some (key, value))
  | leftOut : leave → Written key form leave none

/-- Whether a value is an array of values of some form, in order. -/
def IsList {α : Type} (form : α → Json → Prop) (items : List α) (value : Json) : Prop :=
  ∃ values, value = .arr values ∧ List.Forall₂ form items values

/-! ## Reading a record -/

/-- The value of the first member that a field knows. -/
def valueOf (members : List Member) (names : Names) : Option Json :=
  (members.find? (·.1 ∈ names)).map (·.2)

theorem valueOf_concat (members : List Member) (m : Member) (names : Names) :
    valueOf (members ++ [m]) names
      = (valueOf members names).or (if m.1 ∈ names then some m.2 else none) := by
  rw [valueOf, List.find?_append, Option.map_or, List.find?_singleton, ← valueOf]
  by_cases h : m.1 ∈ names <;> simp [h]

variable {fields : List Names} {members : List (Option Member)}

/-- A value is put into the field that knows its key. -/
theorem fill_map {key : String} {value : Json} {slot : Names → Option Json}
    (hdisjoint : fields.Pairwise List.Disjoint)
    (hfree : ∀ names ∈ fields, key ∈ names → slot names = none) :
    fill key value fields (fields.map slot)
      = some (fields.map fun names => if key ∈ names then some value else slot names) := by
  induction fields with
  | nil => rfl
  | cons names fields ih =>
      obtain ⟨hnames, hrest⟩ := List.pairwise_cons.1 hdisjoint
      obtain ⟨hslot, hslots⟩ := List.forall_mem_cons.1 hfree
      by_cases hkey : key ∈ names
      · -- the other fields do not know the key
        have hsame : fields.map slot
            = fields.map fun names => if key ∈ names then some value else slot names :=
          List.map_congr_left fun other hother => (if_neg (hnames other hother hkey)).symm
        simp only [List.map_cons, fill, if_pos hkey, hslot hkey, ← hsame]
      · simp only [List.map_cons, fill, if_neg hkey, ih hrest hslots, Option.map_some]

/-- If each field knows at most one of some members, all of them find their fields. -/
theorem foldlM_fill (hdisjoint : fields.Pairwise List.Disjoint) (done rest : List Member)
    (honce : ∀ names ∈ fields, ((done ++ rest).filter (·.1 ∈ names)).length ≤ 1) :
    rest.foldlM (fun slots (m : Member) => fill m.1 m.2 fields slots)
        (fields.map (valueOf done))
      = some (fields.map (valueOf (done ++ rest))) := by
  induction rest generalizing done with
  | nil =>
      rw [List.append_nil]
      rfl
  | cons m rest ih =>
      have hfree : ∀ names ∈ fields, m.1 ∈ names → valueOf done names = none := by
        intro names hnames hm
        have hlength := honce names hnames
        rw [List.filter_append, List.filter_cons_of_pos (by simpa using hm), List.length_append,
          List.length_cons] at hlength
        have hnone : done.filter (·.1 ∈ names) = [] := List.eq_nil_of_length_eq_zero (by omega)
        rw [valueOf, ← List.head?_filter, hnone]
        rfl
      have hnext : (fields.map fun names => if m.1 ∈ names then some m.2 else valueOf done names)
          = fields.map (valueOf (done ++ [m])) := by
        refine List.map_congr_left fun names hnames => ?_
        rw [valueOf_concat]
        by_cases hm : m.1 ∈ names
        · rw [if_pos hm, if_pos hm, hfree names hnames hm, Option.none_or]
        · rw [if_neg hm, if_neg hm, Option.or_none]
      rw [List.foldlM_cons, fill_map hdisjoint hfree, hnext]
      have hsplit : done ++ m :: rest = done ++ [m] ++ rest := List.append_cons ..
      rw [hsplit] at honce ⊢
      exact ih (done ++ [m]) honce

theorem filter_eq_nil {members : List Member} {names : Names}
    (h : ∀ m ∈ members, m.1 ∉ names) : members.filter (·.1 ∈ names) = [] := by
  rw [List.filter_eq_nil_iff]
  intro m hm
  simpa using h m hm

/-- Of the members of an object, a field knows its own. -/
theorem forall₂_filter (hdisjoint : fields.Pairwise List.Disjoint)
    (hkeys : List.Forall₂ (fun names member => ∀ m ∈ member, Prod.fst m ∈ names) fields members) :
    List.Forall₂ (fun names member => members.reduceOption.filter (·.1 ∈ names) = member.toList)
      fields members := by
  induction hkeys with
  | nil => exact .nil
  | @cons names member fields members hkey hkeys ih =>
      obtain ⟨hnames, hrest⟩ := List.pairwise_cons.1 hdisjoint
      have hsplit : (member :: members).reduceOption = member.toList ++ members.reduceOption := by
        cases member <;> rfl
      rw [hsplit]
      constructor
      · have hothers : ∀ other ∈ members, ∀ m ∈ other, m.1 ∉ names :=
          forall_of_forall₂ hkeys (fun names' other hother hnot m hm hmem =>
            hnot hmem (hother m hm)) hnames
        have hown : member.toList.filter (·.1 ∈ names) = member.toList :=
          List.filter_eq_self.2 fun m hm => decide_eq_true (hkey m (Option.mem_toList.1 hm))
        rw [List.filter_append, hown, filter_eq_nil, List.append_nil]
        intro m hm
        exact hothers _ (List.reduceOption_mem_iff.1 hm) m rfl
      · refine ((List.forall₂_and_left _ _).2 ⟨hnames, ih hrest⟩).imp ?_
        rintro names' other ⟨hnot, hother⟩
        rw [List.filter_append, filter_eq_nil, List.nil_append, hother]
        intro m hm hmem
        exact hnot (hkey m (Option.mem_toList.1 hm)) hmem

/-- The value of a field is that of the only member that it knows. -/
theorem record?_of_spells {value : Json} (hdisjoint : fields.Pairwise List.Disjoint)
    (hkeys : List.Forall₂ (fun names member => ∀ m ∈ member, Prod.fst m ∈ names) fields members)
    (h : value.Spells fields members) :
    record? fields value = some (members.map (·.map (·.2))) := by
  obtain ⟨all, unknown, rfl, hperm, hunknown⟩ := h
  have hfilter : List.Forall₂ (fun names member => all.filter (·.1 ∈ names) = member.toList)
      fields members := by
    have hnone : ∀ names ∈ fields, ∀ m ∈ unknown, m.1 ∉ names :=
      fun names hnames m hm => hunknown m hm names hnames
    refine ((List.forall₂_and_left _ _).2 ⟨hnone, forall₂_filter hdisjoint hkeys⟩).imp ?_
    rintro names member ⟨hnot, hown⟩
    have hperm' := hperm.filter (·.1 ∈ names)
    rw [List.filter_append, hown, filter_eq_nil hnot, List.append_nil] at hperm'
    cases member with
    | none => exact hperm'.eq_nil
    | some m => exact hperm'.eq_singleton
  have honce : ∀ names ∈ fields, (all.filter (·.1 ∈ names)).length ≤ 1 := by
    refine forall_mem_of_forall₂ hfilter.flip fun member names hown => ?_
    rw [hown]
    exact Option.length_toList_le
  have hvalues : fields.map (valueOf all) = members.map (·.map (·.2)) := by
    rw [← List.forall₂_eq_eq_eq, List.forall₂_map_left_iff, List.forall₂_map_right_iff]
    refine hfilter.imp fun names member hown => ?_
    rw [valueOf, ← List.head?_filter, hown, Option.head?_toList]
  have hstart : List.replicate fields.length none = fields.map (valueOf []) :=
    (List.map_const' ..).symm
  rw [record?, hstart, ← hvalues]
  exact foldlM_fill hdisjoint [] all honce

theorem Written.key {key : String} {form : Json → Prop} {leave : Prop} {member : Option Member}
    (h : Written key form leave member) : ∀ m ∈ member, m.1 ∈ [key] := by
  cases h with
  | here => simp
  | leftOut => simp

/-- A member that is left out is read as the default. -/
theorem Written.orElse {α : Type} {read : Reader α} {key : String} {form : Json → Prop}
    {a default : α} {member : Option Member} (h : Written key form (a = default) member)
    (hread : ∀ value, form value → read value = some a) :
    orElse default read (member.map (·.2)) = some a := by
  cases h with
  | here hvalue => exact hread _ hvalue
  | leftOut hdefault => exact congrArg some hdefault.symm

theorem toList?_of_isList {α : Type} {read : Reader α} {form : α → Json → Prop} {items : List α}
    {value : Json} (hread : ∀ a value, form a value → read value = some a)
    (h : IsList form items value) : toList? read value = some items := by
  obtain ⟨values, rfl, hvalues⟩ := h
  rw [toList?, mapM_eq_some_iff]
  exact hvalues.flip.imp fun value a hvalue => hread a value hvalue

theorem isList_list {α : Type} {form : α → Json → Prop} {f : α → Json} (hf : ∀ a, form a (f a))
    (items : List α) : IsList form items (.list f items) := by
  refine ⟨_, rfl, ?_⟩
  rw [List.forall₂_map_right_iff]
  exact List.forall₂_same.2 fun a _ => hf a

/-- An object with only the members of its fields, in order. -/
theorem spells_obj (fields : List Names) (members : List (Option Member)) :
    (Json.obj members.reduceOption).Spells fields members :=
  ⟨_, [], rfl, by rw [List.append_nil], by simp⟩

end BundleCoverage.Json
