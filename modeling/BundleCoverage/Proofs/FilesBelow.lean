import BundleCoverage.Proofs.Padding
import BundleCoverage.Proofs.SilentPieces

/-!
# Files below a directory

A file below a directory is named by the names that lead to it.  On a disk that is a tree it can be
read under the path of the directory, continued by these names with slashes, just if it lies there
(`Disk.read_join_names`).  The files below a directory are listed once each
(`Disk.nodup_filesBelow`).
-/

namespace BundleCoverage

open Text Std

/-! ## Names with slashes -/

theorem Text.join_eq_intercalate (sep : Char) (pieces : List (List Char)) :
    join sep pieces = [sep].intercalate pieces := by
  induction pieces with
  | nil => rfl
  | cons piece pieces ih =>
      cases pieces with
      | nil => simp [join]
      | cons next pieces =>
          rw [join_cons sep piece (by simp), ih,
            List.intercalate_cons_of_ne_nil (List.cons_ne_nil next pieces), List.append_assoc]
          rfl

namespace Path

/-- The path that some names make. -/
def ofNames (names : List String) : String := "/".intercalate names

/-- Names that lead down to a file: at least one, and each can be the name of a file. -/
structure AreNames (names : List String) : Prop where
  /-- There is a name. -/
  notEmpty : names ≠ []
  /-- Each can be the name of a file. -/
  isName : ∀ name ∈ names, IsName name

variable {names : List String} {name : String}

theorem toList_ofNames (names : List String) :
    (ofNames names).toList = Text.join '/' (names.map String.toList) := by
  rw [ofNames, String.toList_intercalate, join_eq_intercalate]
  rfl

theorem ofNames_singleton (name : String) : ofNames [name] = name := by
  rw [← String.toList_inj, toList_ofNames]
  rfl

theorem ofNames_concat (h : names ≠ []) (name : String) :
    ofNames (names ++ [name]) = ofNames names ++ "/" ++ name := by
  rw [← String.toList_inj, toList_ofNames, List.map_append, List.map_singleton,
    join_append '/' (by simpa using h) (by simp)]
  simp [toList_ofNames, Text.join]

namespace AreNames

theorem split (h : AreNames names) :
    Text.split '/' (ofNames names).toList = names.map String.toList := by
  rw [toList_ofNames, split_join (by simpa using h.notEmpty)]
  intro piece hpiece
  obtain ⟨name, hname, rfl⟩ := List.mem_map.1 hpiece
  exact (h.isName name hname).slash

theorem isSilent (h : AreNames names) {piece : List Char}
    (hpiece : piece ∈ names.map String.toList) : isSilent piece = false := by
  obtain ⟨name, hname, rfl⟩ := List.mem_map.1 hpiece
  rw [Path.isSilent, Bool.or_eq_false_iff, decide_eq_false_iff_not, decide_eq_false_iff_not]
  refine ⟨fun hnil => (h.isName name hname).notEmpty (String.toList_eq_nil_iff.1 hnil), ?_⟩
  exact fun hpoint => (h.isName name hname).notCurrent (String.toList_inj.1 hpoint)

theorem ne_empty (h : AreNames names) : ofNames names ≠ "" := by
  intro hempty
  have hsplit := h.split
  rw [hempty] at hsplit
  have hsilent : Path.isSilent [] = false :=
    h.isSilent (by rw [← hsplit]; exact List.mem_singleton_self [])
  cases hsilent

theorem isAbsolute (h : AreNames names) : isAbsolute (ofNames names) = false := by
  rw [Bool.eq_false_iff, ne_eq, isAbsolute_iff_head? h.ne_empty, h.split]
  intro hhead
  have hsilent := h.isSilent (List.mem_of_head? hhead)
  cases hsilent

theorem getLast? (h : AreNames names) : (ofNames names).toList.getLast? ≠ some '/' := by
  intro hlast
  obtain ⟨text, htext⟩ := List.getLast?_eq_some_iff.1 hlast
  have hsplit := h.split
  rw [htext, split_append_sep] at hsplit
  have hsilent : Path.isSilent [] = false := h.isSilent (by rw [← hsplit]; simp [Text.split])
  cases hsilent

/-- Names are a first one, continued by one after another. -/
@[elab_as_elim]
theorem induction {P : List String → Prop} (first : ∀ name, IsName name → P [name])
    (next : ∀ names name, AreNames names → IsName name → P names → P (names ++ [name]))
    (h : AreNames names) : P names := by
  induction names using List.reverseRecOn with
  | nil => exact absurd rfl h.notEmpty
  | append_singleton names name ih =>
      obtain ⟨hnames, hname⟩ := List.forall_mem_append.1 h.isName
      have hname := List.forall_mem_singleton.1 hname
      by_cases hempty : names = []
      · rw [hempty]
        exact first name hname
      · exact next names name ⟨hempty, hnames⟩ hname (ih ⟨hempty, hnames⟩)

end AreNames

/-- Relative paths continue a path behind the same text. -/
theorem exists_join_eq_append (path : String) :
    ∃ lead, ∀ next, Path.isAbsolute next = false → join path next = lead ++ next := by
  by_cases hpath : path.isEmpty = true
  · exact ⟨"", fun next _ => by rw [join, if_pos (by simp [hpath]), String.empty_append]⟩
  · by_cases hlast : path.toList.getLast? = some '/'
    · exact ⟨path, fun next h => by rw [join, if_neg (by simp [h, hpath]), if_pos hlast]⟩
    · exact ⟨path ++ "/", fun next h => by rw [join, if_neg (by simp [h, hpath]), if_neg hlast]⟩

theorem join_ne_empty {next : String} (h : Path.isAbsolute next = false) (hne : next ≠ "")
    (path : String) : join path next ≠ "" := by
  obtain ⟨lead, hlead⟩ := exists_join_eq_append path
  rw [hlead next h, ne_eq, ← String.toList_inj, String.toList_append]
  exact fun hempty => hne (String.toList_eq_nil_iff.1 (List.append_eq_nil_iff.1 hempty).2)

/-- A path continued by names is continued by the last of them behind the others. -/
theorem join_ofNames_concat (h : AreNames names) (hname : Path.isAbsolute name = false)
    (path : String) :
    join path (ofNames (names ++ [name])) = join (join path (ofNames names)) name := by
  obtain ⟨lead, hlead⟩ := exists_join_eq_append path
  have hne : (ofNames names).toList ≠ [] := fun hnil => h.ne_empty (String.toList_eq_nil_iff.1 hnil)
  have hrelative : Path.isAbsolute (ofNames names ++ "/" ++ name) = false := by
    have habsolute := h.isAbsolute
    unfold Path.isAbsolute at habsolute ⊢
    rwa [String.toList_append, String.toList_append, List.append_assoc,
      List.head?_append_of_ne_nil _ hne]
  have hlast : (lead ++ ofNames names).toList.getLast? ≠ some '/' := by
    rw [String.toList_append, List.getLast?_append_of_ne_nil _ hne]
    exact h.getLast?
  have hpath : lead ++ ofNames names ≠ "" := by
    intro hempty
    rw [← String.toList_inj, String.toList_append] at hempty
    exact hne (List.append_eq_nil_iff.1 hempty).2
  rw [ofNames_concat h.notEmpty, hlead _ hrelative, hlead _ h.isAbsolute, ← String.toList_inj,
    toList_join_of_getLast? hpath hlast hname]
  simp

end Path

/-! ## Files -/

namespace Disk

open BundleCoverage.Path

variable {d : Disk} {path : String} {names : List String}

theorem opens_join {name : String} (hname : IsName name) :
    d.Opens (Path.join path name) ↔
      d.Opens path ∧ d.node? (d.target path ++ [name]) = some .directory := by
  rw [opens_iff (join_ne_empty hname.isAbsolute hname.notEmpty path)]
  simp only [locate_join hname]
  constructor
  · rintro ⟨_, ⟨hopens, rfl⟩, hnode⟩
    exact ⟨hopens, hnode⟩
  · rintro ⟨hopens, hnode⟩
    exact ⟨_, ⟨hopens, rfl⟩, hnode⟩

theorem target_join_names (h : AreNames names) :
    d.target (Path.join path (ofNames names)) = d.target path ++ names := by
  refine AreNames.induction ?_ ?_ h
  · intro name hname
    rw [ofNames_singleton, target_join hname]
  · intro names name hnames hname ih
    rw [join_ofNames_concat hnames hname.isAbsolute, target_join hname, ih, List.append_assoc]

/-- The directory that something lies in is there. -/
theorem WellFormed.and_parent {node : Node} (hd : d.WellFormed) {p : Place} {name : String}
    {P : Prop} :
    (P ∧ d.node? p = some .directory) ∧ d.node? (p ++ [name]) = some node ↔
      P ∧ d.node? (p ++ [name]) = some node := by
  rw [and_right_comm]
  refine and_iff_left_of_imp fun h => ?_
  have hparent := hd.parent _ _ h.2
  rwa [List.dropLast_concat] at hparent

/-- A directory below another is reached through it. -/
theorem opens_join_names (hd : d.WellFormed) (h : AreNames names) :
    d.Opens (Path.join path (ofNames names)) ↔
      d.Opens path ∧ d.node? (d.target path ++ names) = some .directory := by
  refine AreNames.induction ?_ ?_ h
  · intro name hname
    rw [ofNames_singleton, opens_join hname]
  · intro names name hnames hname ih
    rw [join_ofNames_concat hnames hname.isAbsolute, opens_join hname, ih,
      target_join_names hnames, ← List.append_assoc, hd.and_parent]

/-- A file is read under the path of a directory and its names if it lies there. -/
theorem read_join_names (hd : d.WellFormed) (h : AreNames names) {bytes : List UInt8} :
    d.read (Path.join path (ofNames names)) = .ok bytes ↔
      d.Opens path ∧ d.node? (d.target path ++ names) = some (.file bytes) := by
  refine AreNames.induction ?_ ?_ h
  · intro name hname
    rw [ofNames_singleton, read_join hname]
  · intro names name hnames hname _
    rw [join_ofNames_concat hnames hname.isAbsolute, read_join hname, opens_join_names hd hnames,
      target_join_names hnames, ← List.append_assoc, hd.and_parent]

/-! ## Listed files -/

variable {p : Place}

theorem mem_filesBelow {bytes : List UInt8} :
    (names, bytes) ∈ d.filesBelow p ↔ d.nodes[p ++ names]? = some (.file bytes) := by
  rw [filesBelow, List.mem_filterMap]
  constructor
  · rintro ⟨⟨s, node⟩, hmem, hfile⟩
    cases node with
    | directory => cases hfile
    | file found =>
        obtain ⟨hstarts, heq⟩ := Option.ite_none_right_eq_some.1 hfile
        cases heq
        obtain ⟨rest, rfl⟩ := List.isPrefixOf_iff_prefix.1 hstarts
        rw [List.drop_left]
        exact ExtTreeMap.mem_toList_iff_getElem?_eq_some.1 hmem
  · intro hnode
    exact ⟨(p ++ names, .file bytes), ExtTreeMap.mem_toList_iff_getElem?_eq_some.2 hnode, by simp⟩

/-- Each file below a place is listed once. -/
theorem nodup_filesBelow (d : Disk) (p : Place) : ((d.filesBelow p).map (·.1)).Nodup := by
  rw [List.Nodup, List.pairwise_map, filesBelow, List.pairwise_filterMap]
  refine (pairwise_ne_toList d.nodes).imp ?_
  rintro ⟨s, node⟩ ⟨t, node'⟩ hne ⟨names, bytes⟩ hnames ⟨names', bytes'⟩ hnames' heq
  cases node with
  | directory => cases hnames
  | file =>
      cases node' with
      | directory => cases hnames'
      | file =>
          obtain ⟨hstarts, hfound⟩ := Option.ite_none_right_eq_some.1 hnames
          obtain ⟨hstarts', hfound'⟩ := Option.ite_none_right_eq_some.1 hnames'
          cases hfound
          cases hfound'
          obtain ⟨rest, rfl⟩ := List.isPrefixOf_iff_prefix.1 hstarts
          obtain ⟨rest', rfl⟩ := List.isPrefixOf_iff_prefix.1 hstarts'
          simp only [List.drop_left] at heq
          exact hne (congrArg (p ++ ·) heq)

end Disk

end BundleCoverage
