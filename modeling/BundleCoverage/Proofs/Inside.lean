import BundleCoverage.Disk.Path
import Mathlib.Data.List.Basic

/-!
# Paths inside a directory

A path lies inside a directory if its components are those of the directory and further ones, of
which none is the root or leads up (`Inside`).

A path joined to a directory lies inside if it descends: it is relative and never leads up
(`inside_join`).  Of names joined to a relative directory one by one, all have to descend
(`inside_foldl_join_iff`).  Below an absolute directory this is enough, but an absolute name may
happen to lead back into the directory.
-/

namespace BundleCoverage

theorem Text.split_append_sep (sep : Char) (a b : List Char) :
    split sep (a ++ sep :: b) = split sep a ++ split sep b := by
  induction a with
  | nil => simp [split]
  | cons c a ih =>
      rw [List.cons_append, split, split, ih]
      by_cases hc : c = sep
      · rw [if_pos hc, if_pos hc, List.cons_append]
      · rw [if_neg hc, if_neg hc]
        cases h : split sep a with
        | nil => exact absurd h (split_ne_nil sep a)
        | cons piece pieces => rfl

theorem Text.join_append (sep : Char) {pieces more : List (List Char)} (hpieces : pieces ≠ [])
    (hmore : more ≠ []) : join sep (pieces ++ more) = join sep pieces ++ sep :: join sep more := by
  induction pieces with
  | nil => exact absurd rfl hpieces
  | cons piece pieces ih =>
      cases pieces with
      | nil => exact join_cons sep piece hmore
      | cons next pieces =>
          rw [List.cons_append, join_cons sep piece (by simp), ih (by simp),
            join_cons sep piece (by simp), List.append_assoc, List.cons_append]

namespace Path

open Text

/-! ## Components of joined paths -/

/-- The components of a text that is read on from a directory. -/
def steps (text : List Char) : List Component :=
  ((split '/' text).filter fun p => p ≠ [] && p ≠ ['.']).map .ofPiece

theorem steps_nil : steps [] = [] := rfl

theorem steps_append (a b : List Char) : steps (a ++ '/' :: b) = steps a ++ steps b := by
  rw [steps, split_append_sep, List.filter_append, List.map_append]
  rfl

theorem mem_steps {text : List Char} {c : Component} (h : c ∈ steps text) :
    c ≠ .root ∧ c ≠ .current := by
  obtain ⟨piece, -, rfl⟩ := List.mem_map.1 h
  unfold Component.ofPiece
  split <;> simp

/-- What a path has in front of its steps. -/
def start (path : String) : List Component :=
  if isAbsolute path then [.root]
  else if (split '/' path.toList).head? = some ['.'] then [.current] else []

theorem components_eq (path : String) : components path = start path ++ steps path.toList := rfl

theorem parent_notMem_start (path : String) : .parent ∉ start path := by
  unfold start
  split
  · simp
  · split <;> simp

theorem root_mem_components_iff {path : String} :
    .root ∈ components path ↔ isAbsolute path = true := by
  rw [components_eq, List.mem_append]
  constructor
  · rintro (h | h)
    · unfold start at h
      split at h
      · assumption
      · split at h <;> simp at h
    · exact absurd rfl (mem_steps h).1
  · intro h
    exact .inl (by simp [start, h])

/-- A relative path is read on behind the slash that ends the directory. -/
theorem exists_toList_join {path next : String} (hpath : path ≠ "")
    (hnext : isAbsolute next = false) :
    ∃ directory, (path.toList = directory ∨ path.toList = directory ++ ['/']) ∧
      (join path next).toList = directory ++ '/' :: next.toList := by
  have hempty : path.isEmpty = false := String.isEmpty_eq_false_iff.2 hpath
  unfold join
  rw [if_neg (by simp [hnext, hempty])]
  split
  · next hlast =>
    obtain ⟨directory, hdirectory⟩ := List.getLast?_eq_some_iff.1 hlast
    exact ⟨directory, .inr hdirectory, by simp [hdirectory]⟩
  · exact ⟨path.toList, .inl rfl, by simp⟩

theorem isAbsolute_join (path next : String) :
    isAbsolute (join path next) = (isAbsolute path || isAbsolute next) := by
  cases hnext : isAbsolute next with
  | true => simp [join, hnext]
  | false =>
      by_cases hpath : path = ""
      · subst hpath
        have hjoin : join "" next = next := by simp [join]
        rw [hjoin, hnext]
        rfl
      · obtain ⟨directory, hdirectory, hjoin⟩ := exists_toList_join hpath hnext
        rw [isAbsolute, isAbsolute, hjoin, Bool.or_false]
        cases directory with
        | nil =>
            rcases hdirectory with h | h
            · exact absurd (String.toList_eq_nil_iff.1 h) hpath
            · rw [h]
              rfl
        | cons c directory =>
            rcases hdirectory with h | h
            · rw [h]
              rfl
            · rw [h]
              rfl

theorem head?_join {path next : String} (hpath : path ≠ "") (hnext : isAbsolute next = false) :
    (split '/' (join path next).toList).head? = (split '/' path.toList).head? := by
  obtain ⟨directory, hdirectory, hjoin⟩ := exists_toList_join hpath hnext
  rw [hjoin, split_append_sep, List.head?_append_of_ne_nil _ (split_ne_nil '/' directory)]
  rcases hdirectory with h | h
  · rw [h]
  · rw [h, split_append_sep, List.head?_append_of_ne_nil _ (split_ne_nil '/' directory)]

theorem start_join {path next : String} (hpath : path ≠ "") (hnext : isAbsolute next = false) :
    start (join path next) = start path := by
  rw [start, start, isAbsolute_join, hnext, Bool.or_false, head?_join hpath hnext]

theorem steps_join {path next : String} (hpath : path ≠ "") (hnext : isAbsolute next = false) :
    steps (join path next).toList = steps path.toList ++ steps next.toList := by
  obtain ⟨directory, hdirectory, hjoin⟩ := exists_toList_join hpath hnext
  rw [hjoin, steps_append]
  rcases hdirectory with h | h
  · rw [h]
  · rw [h, steps_append, steps_nil, List.append_nil]

theorem components_join {path next : String} (hpath : path ≠ "")
    (hnext : isAbsolute next = false) :
    components (join path next) = components path ++ steps next.toList := by
  rw [components_eq, start_join hpath hnext, steps_join hpath hnext, components_eq,
    List.append_assoc]

/-! ## Inside a directory -/

/-- Whether a path lies inside a directory: behind the components of the directory it has neither
the root nor a component that leads up. -/
def Inside (directory path : String) : Prop :=
  ∃ rest, components path = components directory ++ rest ∧ .root ∉ rest ∧ .parent ∉ rest

/-- Whether a path leads only down. -/
def Descends (path : String) : Prop := isAbsolute path = false ∧ .parent ∉ components path

instance (path : String) : Decidable (Descends path) := inferInstanceAs (Decidable (_ ∧ _))

/-- A name without slashes descends unless it is the directory above. -/
theorem descends_of_notMem {name : String} (hslash : '/' ∉ name.toList)
    (hup : name.toList ≠ ['.', '.']) : Descends name := by
  refine ⟨?_, fun hparent => ?_⟩
  · rw [Bool.eq_false_iff]
    intro habsolute
    exact hslash (List.mem_of_head? (by simpa [isAbsolute] using habsolute))
  · rcases List.mem_append.1 hparent with h | h
    · exact parent_notMem_start name h
    · obtain ⟨piece, hpiece, hparent⟩ := List.mem_map.1 h
      rw [split_of_notMem hslash] at hpiece
      have heq : piece = name.toList := List.mem_singleton.1 (List.mem_of_mem_filter hpiece)
      unfold Component.ofPiece at hparent
      split at hparent
      · next hdots => exact hup (heq ▸ hdots)
      · cases hparent

theorem Inside.refl (directory : String) : Inside directory directory :=
  ⟨[], (List.append_nil _).symm, List.not_mem_nil, List.not_mem_nil⟩

theorem Inside.trans {a b c : String} (hab : Inside a b) (hbc : Inside b c) : Inside a c := by
  obtain ⟨rest, hb, hroot, hparent⟩ := hab
  obtain ⟨rest', hc, hroot', hparent'⟩ := hbc
  refine ⟨rest ++ rest', by rw [hc, hb, List.append_assoc], ?_, ?_⟩
  · simp [hroot, hroot']
  · simp [hparent, hparent']

theorem inside_join {path next : String} (h : Descends next) : Inside path (join path next) := by
  obtain ⟨hrelative, hparent⟩ := h
  by_cases hpath : path = ""
  · subst hpath
    have hjoin : join "" next = next := by simp [join]
    rw [hjoin]
    refine ⟨components next, rfl, fun hroot => ?_, hparent⟩
    simp [root_mem_components_iff.1 hroot] at hrelative
  · refine ⟨steps next.toList, components_join hpath hrelative, fun hroot => ?_, fun hup => ?_⟩
    · exact (mem_steps hroot).1 rfl
    · exact hparent (List.mem_append_right _ hup)

theorem inside_foldl_join {names : List String} (h : ∀ name ∈ names, Descends name)
    (directory : String) : Inside directory (names.foldl join directory) := by
  induction names generalizing directory with
  | nil => exact .refl directory
  | cons name names ih =>
      obtain ⟨hname, hnames⟩ := List.forall_mem_cons.1 h
      exact (inside_join hname).trans (ih hnames (join directory name))

/-! ## Outside of it -/

theorem isAbsolute_foldl_join (names : List String) (directory : String) :
    isAbsolute (names.foldl join directory) = (isAbsolute directory || names.any isAbsolute) := by
  induction names generalizing directory with
  | nil => simp
  | cons name names ih => rw [List.foldl_cons, ih, isAbsolute_join, List.any_cons, Bool.or_assoc]

theorem count_parent_join (path : String) {next : String} (hnext : isAbsolute next = false) :
    (components (join path next)).count .parent
      = (components path).count .parent + (components next).count .parent := by
  by_cases hpath : path = ""
  · subst hpath
    have hjoin : join "" next = next := by simp [join]
    rw [hjoin]
    exact (Nat.zero_add _).symm
  · rw [components_join hpath hnext, List.count_append, components_eq next, List.count_append,
      List.count_eq_zero_of_not_mem (parent_notMem_start next), Nat.zero_add]

theorem count_parent_foldl_join {names : List String}
    (h : ∀ name ∈ names, isAbsolute name = false) (directory : String) :
    (components (names.foldl join directory)).count .parent
      = (components directory).count .parent + (names.flatMap components).count .parent := by
  induction names generalizing directory with
  | nil => rfl
  | cons name names ih =>
      obtain ⟨hname, hnames⟩ := List.forall_mem_cons.1 h
      rw [List.foldl_cons, ih hnames, count_parent_join directory hname, List.flatMap_cons,
        List.count_append, Nat.add_assoc]

theorem descends_of_inside {names : List String} {directory : String}
    (hdirectory : isAbsolute directory = false)
    (h : Inside directory (names.foldl join directory)) : ∀ name ∈ names, Descends name := by
  obtain ⟨rest, hcomponents, hroot, hparent⟩ := h
  have hrelative : ∀ name ∈ names, isAbsolute name = false := by
    have hresult : isAbsolute (names.foldl join directory) = false := by
      rw [Bool.eq_false_iff]
      intro habsolute
      rw [← root_mem_components_iff, hcomponents, List.mem_append, root_mem_components_iff,
        hdirectory] at habsolute
      simp [hroot] at habsolute
    rw [isAbsolute_foldl_join, hdirectory, Bool.false_or] at hresult
    simpa using hresult
  have hcount := count_parent_foldl_join hrelative directory
  rw [hcomponents, List.count_append, List.count_eq_zero_of_not_mem hparent] at hcount
  have hdown : .parent ∉ names.flatMap components := List.count_eq_zero.1 (by omega)
  intro name hname
  exact ⟨hrelative name hname, fun hup => hdown (List.mem_flatMap_of_mem hname hup)⟩

theorem inside_foldl_join_iff {names : List String} {directory : String}
    (hdirectory : isAbsolute directory = false) :
    Inside directory (names.foldl join directory) ↔ ∀ name ∈ names, Descends name :=
  ⟨descends_of_inside hdirectory, fun h => inside_foldl_join h directory⟩

end Path

end BundleCoverage
