import BundleCoverage.Merge.Seed
import BundleCoverage.Proofs.FilesBelow
import BundleCoverage.Proofs.Spellings

/-!
# Paths of the files that a walk finds

A walk spells the files that it finds in its own way (`Seed.Spells`): it drops the points in front of
a relative path, and does not double slashes.  Neither changes where a path leads.  But a path from
the project root has to start as the project root is spelled, and where the walk dropped a point it
does not (`Seed.below?_of_not_isWalkable`).

Everywhere else the walk finds the path of each file from the project root
(`Seed.below?_of_isWalkable`), up to points in front that its canonical form does not keep.
-/

namespace BundleCoverage

open Text BundleCoverage.Path

namespace Seed

/-! ## Where a walk starts -/

theorem exists_points (pieces : List (List Char)) :
    ∃ points, (∀ piece ∈ points, piece = ['.']) ∧ pieces = points ++ dropPoints pieces ∧
      (dropPoints pieces).head? ≠ some ['.'] := by
  induction pieces with
  | nil => exact ⟨[], List.forall_mem_nil _, rfl, by simp [dropPoints]⟩
  | cons piece pieces ih =>
      by_cases hpoint : piece = ['.']
      · subst hpoint
        obtain ⟨points, hpoints, hsplit, hhead⟩ := ih
        refine ⟨['.'] :: points, List.forall_mem_cons.2 ⟨rfl, hpoints⟩, ?_, hhead⟩
        rw [dropPoints, List.cons_append, ← hsplit]
      · have hstay : dropPoints (piece :: pieces) = piece :: pieces := by
          unfold dropPoints
          split
          · next heq =>
            cases heq
            exact absurd rfl hpoint
          · rfl
        rw [hstay]
        exact ⟨[], List.forall_mem_nil _, rfl, by simpa using hpoint⟩

/-- The points in front are no steps. -/
theorem filter_dropPoints (pieces : List (List Char)) :
    (dropPoints pieces).filter (!isSilent ·) = pieces.filter (!isSilent ·) := by
  obtain ⟨points, hpoints, hsplit, -⟩ := exists_points pieces
  have hnone : points.filter (!isSilent ·) = [] := by
    refine List.filter_eq_nil_iff.2 fun piece hpiece => ?_
    rw [hpoints piece hpiece]
    decide
  conv_rhs => rw [hsplit, List.filter_append, hnone, List.nil_append]

theorem dropWhile_dropPoints (pieces : List (List Char)) :
    (dropPoints pieces).dropWhile isSilent = pieces.dropWhile isSilent := by
  obtain ⟨points, hpoints, hsplit, -⟩ := exists_points pieces
  have hsilent : ∀ piece ∈ points, isSilent piece = true := by
    intro piece hpiece
    rw [hpoints piece hpiece]
    rfl
  conv_rhs => rw [hsplit, List.dropWhile_append_of_pos hsilent]

theorem mem_of_mem_dropPoints {piece : List Char} {pieces : List (List Char)}
    (h : piece ∈ dropPoints pieces) : piece ∈ pieces := by
  obtain ⟨points, -, hsplit, -⟩ := exists_points pieces
  rw [hsplit]
  exact List.mem_append_right points h

/-- How a walk spells what lies below a path: behind silent pieces, if the path starts at the root,
it has the pieces from the first step on, without the empty ones. -/
structure Spells (root path : String) : Prop where
  /-- Both lead to the same place. -/
  sameWay : SameWay root path
  /-- The pieces of a path below. -/
  pieces : ∃ lead, (∀ piece ∈ lead, isSilent piece) ∧
    ((split '/' path.toList).head? ≠ some [] → lead = []) ∧
      ∀ next, isAbsolute next = false →
        split '/' (Path.join root next).toList
          = lead ++ ((split '/' path.toList).dropWhile isSilent).filter (· ≠ [])
            ++ split '/' next.toList

theorem join_empty (next : String) : Path.join "" next = next := by
  simp [Path.join]

theorem isSilent_eq_false {piece : List Char} (hempty : piece ≠ []) (hpoint : piece ≠ ['.']) :
    isSilent piece = false := by
  simp [isSilent, hempty, hpoint]

/-- A walk from a path that does not start with a point. -/
theorem spells_spelled {path : String} (hpath : path ≠ "")
    (hhead : (split '/' path.toList).head? ≠ some ['.']) : Spells (spelled path) path := by
  refine ⟨sameWay_spelled hpath, (split '/' path.toList).takeWhile isSilent,
    fun piece hpiece => List.all_eq_true.1 List.all_takeWhile piece hpiece, ?_,
    fun next hnext => split_join_spelled hnext⟩
  intro hempty
  cases hsplit : split '/' path.toList with
  | nil => rfl
  | cons piece pieces =>
      rw [hsplit] at hhead hempty
      have hsilent : isSilent piece = false :=
        isSilent_eq_false (by simpa using hempty) (by simpa using hhead)
      exact List.takeWhile_cons_of_neg (by simp [hsilent])

theorem walkRoot?_of_head? {path : String} (hpath : path ≠ "")
    (hhead : (split '/' path.toList).head? ≠ some ['.']) :
    walkRoot? path = some (spelled path) := by
  have hempty : path.isEmpty = false := String.isEmpty_eq_false_iff.2 hpath
  unfold walkRoot?
  simp only [hempty, Bool.false_eq_true, if_false, if_pos hhead]

/-- A walk starts from a path as it is spelled, or without the points in front of it. -/
theorem walkRoot?_cases {path root : String} (hpath : path ≠ "") (h : walkRoot? path = some root) :
    ((split '/' path.toList).head? ≠ some ['.'] ∧ root = spelled path) ∨
      (split '/' path.toList).head? = some ['.'] ∧
        ((dropPoints (split '/' path.toList) = [] ∧ root = "") ∨
          dropPoints (split '/' path.toList) ≠ [] ∧
            (dropPoints (split '/' path.toList)).head? ≠ some [] ∧
            root = spelled (String.ofList (Text.join '/' (dropPoints (split '/' path.toList))))) := by
  have hempty : path.isEmpty = false := String.isEmpty_eq_false_iff.2 hpath
  unfold walkRoot? at h
  simp only [hempty, Bool.false_eq_true, if_false] at h
  split at h
  · next hhead => exact .inl ⟨hhead, (Option.some.inj h).symm⟩
  · next hhead =>
    refine .inr ⟨not_not.1 hhead, ?_⟩
    split at h
    · next hnil => exact .inl ⟨hnil, (Option.some.inj h).symm⟩
    · cases h
    · next hnil hname =>
      refine .inr ⟨fun heq => hnil heq, fun heq => ?_, (Option.some.inj h).symm⟩
      obtain ⟨rest, hrest⟩ := List.head?_eq_some_iff.1 heq
      exact hname rest hrest

/-- A walk from a path with points in front that a name follows. -/
theorem spells_dropPoints {path : String} (hrelative : isAbsolute path = false)
    (hnil : dropPoints (split '/' path.toList) ≠ [])
    (hname : (dropPoints (split '/' path.toList)).head? ≠ some []) :
    Spells (spelled (String.ofList (Text.join '/' (dropPoints (split '/' path.toList))))) path := by
  obtain ⟨-, -, -, hpoint⟩ := exists_points (split '/' path.toList)
  have hslash : ∀ piece ∈ dropPoints (split '/' path.toList), '/' ∉ piece :=
    fun piece hpiece => (mem_split (mem_of_mem_dropPoints hpiece)).1
  generalize hrest : String.ofList (Text.join '/' (dropPoints (split '/' path.toList))) = rest
  have hsplit : split '/' rest.toList = dropPoints (split '/' path.toList) := by
    rw [← hrest, String.toList_ofList, split_join hnil hslash]
  rw [← hsplit] at hname hpoint
  have hne : rest ≠ "" := by
    rintro rfl
    exact hname rfl
  have hspells := spells_spelled hne hpoint
  obtain ⟨lead, -, hlead, hjoin⟩ := hspells.pieces
  refine ⟨hspells.sameWay.trans ⟨?_, ?_⟩, [], List.forall_mem_nil _, fun _ => rfl, ?_⟩
  · rw [hrelative, Bool.eq_false_iff, ne_eq, isAbsolute_iff_head? hne]
    exact hname
  · rw [moves, moves, hsplit, filter_dropPoints]
  · intro next hnext
    rw [hjoin next hnext, hlead hname, hsplit, dropWhile_dropPoints]

theorem spells_of_walkRoot? {path root : String} (hpath : path ≠ "")
    (h : walkRoot? path = some root) : Spells root path := by
  rcases walkRoot?_cases hpath h with ⟨hhead, hroot⟩ | ⟨hhead, hdropped⟩
  · rw [hroot]
    exact spells_spelled hpath hhead
  · have hrelative : isAbsolute path = false := by
      rw [Bool.eq_false_iff, ne_eq, isAbsolute_iff_head? hpath, hhead]
      simp
    rcases hdropped with ⟨hnil, hroot⟩ | ⟨hnil, hname, hroot⟩
    · rw [hroot]
      refine ⟨⟨hrelative.symm, ?_⟩, [], List.forall_mem_nil _, fun _ => rfl, fun next _ => ?_⟩
      · rw [moves, moves, ← filter_dropPoints (split '/' path.toList), hnil]
        rfl
      · rw [← dropWhile_dropPoints, hnil, join_empty]
        rfl
    · rw [hroot]
      exact spells_dropPoints hrelative hnil hname

/-! ## Paths from a project root -/

section Below

variable {root path projectRoot sourceRoot : String} {names : List String}

theorem steps_eq (path : String) :
    Path.steps path.toList = (moves path).map Component.ofPiece := by
  rw [Path.steps, moves]
  congr 1
  refine List.filter_congr fun piece _ => ?_
  simp [isSilent]

/-- The components of a path that is spelled as a walk spells it. -/
theorem Spells.components (h : Spells root path) (hpath : path ≠ "") (hnames : AreNames names) :
    components (Path.join root (ofNames names))
      = (if isAbsolute path then [.root] else [])
        ++ (moves path ++ names.map String.toList).map Component.ofPiece := by
  obtain ⟨lead, hlead, hrelative, hjoin⟩ := h.pieces
  have hsplit := hjoin (ofNames names) hnames.isAbsolute
  rw [hnames.split] at hsplit
  have hmoves : moves (Path.join root (ofNames names))
      = moves path ++ names.map String.toList := by
    have hlead : lead.filter (!isSilent ·) = [] :=
      List.filter_eq_nil_iff.2 fun piece hpiece => by simp [hlead piece hpiece]
    have hkept : (names.map String.toList).filter (!isSilent ·) = names.map String.toList :=
      List.filter_eq_self.2 fun piece hpiece => by simp [hnames.isSilent hpiece]
    rw [moves, hsplit, List.filter_append, List.filter_append, hlead, hkept, List.nil_append,
      filter_isSilent_filter, filter_isSilent_dropWhile]
    rfl
  have hstart : Path.start (Path.join root (ofNames names))
      = if isAbsolute path then [.root] else [] := by
    rw [Path.start, isAbsolute_join, hnames.isAbsolute, Bool.or_false, h.sameWay.isAbsolute]
    by_cases habsolute : isAbsolute path = true
    · rw [if_pos habsolute, if_pos habsolute]
    · rw [if_neg habsolute, if_neg habsolute, if_neg]
      intro hhead
      rw [isAbsolute_iff_head? hpath] at habsolute
      rw [hsplit, hrelative habsolute, List.nil_append] at hhead
      have hsilent := isSilent_of_mem_head? (fun _ => hnames.isSilent) hhead
      cases hsilent
  rw [components_eq, hstart, steps_eq, hmoves]

theorem join_ne_empty_of_left (hpath : path ≠ "") {next : String}
    (hnext : isAbsolute next = false) : Path.join path next ≠ "" := by
  intro hempty
  obtain ⟨text, -, hjoin⟩ := exists_toList_join hpath hnext
  rw [hempty] at hjoin
  simp at hjoin

theorem moves_join (hpath : path ≠ "") {next : String} (hnext : isAbsolute next = false) :
    moves (Path.join path next) = moves path ++ moves next := by
  obtain ⟨text, htext, hjoin⟩ := exists_toList_join hpath hnext
  rw [moves, hjoin, split_append_sep, List.filter_append, moves, moves]
  rcases htext with h | h
  · rw [h]
  · rw [h, split_append_sep, List.filter_append]
    simp [split, isSilent]

/-- What remains of the path of a file below the project root: the source root from its first step
on, with slashes not doubled, and the names of the file. -/
def remainder (sourceRoot : String) (names : List String) : String :=
  String.ofList (Text.join '/'
    (((split '/' sourceRoot.toList).dropWhile isSilent).filter (· ≠ []) ++ names.map String.toList))

/-- A walk finds the files below a project root that does not start with a point. -/
theorem Spells.below? (h : Spells root (Path.join projectRoot sourceRoot))
    (hsource : isAbsolute sourceRoot = false) (hproject : projectRoot ≠ "")
    (hhead : (split '/' projectRoot.toList).head? ≠ some ['.']) (hnames : AreNames names) :
    Path.below? projectRoot (Path.join root (ofNames names))
      = some (remainder sourceRoot names) := by
  have hpath := join_ne_empty_of_left hproject hsource
  have hstarts : (Path.components projectRoot).isPrefixOf
      (Path.components (Path.join root (ofNames names))) = true := by
    have hstart : Path.start projectRoot = if isAbsolute projectRoot then [.root] else [] := by
      rw [Path.start, if_neg hhead]
    rw [List.isPrefixOf_iff_prefix, h.components hpath hnames, components_eq, hstart, steps_eq,
      isAbsolute_join, hsource, Bool.or_false, moves_join hproject hsource, List.append_assoc,
      List.map_append, ← List.append_assoc]
    exact List.prefix_append ..
  obtain ⟨lead, hlead, -, hjoin⟩ := h.pieces
  have hempty : projectRoot.isEmpty = false := String.isEmpty_eq_false_iff.2 hproject
  obtain ⟨text, htext, hroot⟩ := exists_toList_join hproject hsource
  have hcount : (split '/' projectRoot.toList).countP (!isSilent ·)
      = (split '/' text).countP (!isSilent ·) := by
    rcases htext with h | h
    · rw [h]
    · rw [h, split_append_sep, List.countP_append]
      rfl
  unfold Path.below?
  rw [if_pos hstarts]
  simp only [hempty, Bool.false_eq_true, if_false]
  rw [hjoin _ hnames.isAbsolute, hroot, split_append_sep, hnames.split, hcount,
    dropSteps_of_spelled hlead fun _ => hnames.isSilent]
  rfl

/-- Without a project root a walk finds files under their own paths. -/
theorem Spells.below?_empty (h : Spells root sourceRoot) (hsource : isAbsolute sourceRoot = false)
    (hne : sourceRoot ≠ "") (hnames : AreNames names) :
    Path.below? "" (Path.join root (ofNames names)) = some (remainder sourceRoot names) := by
  obtain ⟨lead, -, hrelative, hjoin⟩ := h.pieces
  have hhead : (split '/' sourceRoot.toList).head? ≠ some [] := by
    rw [ne_eq, ← isAbsolute_iff_head? hne, hsource]
    simp
  have hsplit := hjoin _ hnames.isAbsolute
  rw [hrelative hhead, List.nil_append, hnames.split] at hsplit
  have hfile : Path.join root (ofNames names) = remainder sourceRoot names := by
    rw [remainder, ← hsplit, join_split, String.ofList_toList]
  rw [hfile]
  rfl

theorem normalizeChars_dropWhile {next : List (List Char)} (hnext : next ≠ [])
    (pieces : List (List Char)) :
    SourcePath.normalizeChars (replaceChar '\\' '/'
        (Text.join '/' ((pieces.dropWhile isSilent).filter (· ≠ []) ++ next)))
      = SourcePath.normalizeChars (replaceChar '\\' '/'
        (Text.join '/' (pieces.filter (· ≠ []) ++ next))) := by
  induction pieces with
  | nil => rfl
  | cons piece pieces ih =>
      cases hsilent : isSilent piece with
      | false => rw [List.dropWhile_cons_of_neg (by simp [hsilent])]
      | true =>
          rw [List.dropWhile_cons_of_pos hsilent, ih]
          rw [isSilent, Bool.or_eq_true, decide_eq_true_eq, decide_eq_true_eq] at hsilent
          rcases hsilent with rfl | rfl
          · rfl
          · have hne : pieces.filter (· ≠ []) ++ next ≠ [] := by simp [hnext]
            have hkeep : (['.'] :: pieces).filter (· ≠ []) = ['.'] :: pieces.filter (· ≠ []) := rfl
            rw [hkeep, List.cons_append, join_cons '/' ['.'] hne]
            exact (SourcePath.normalizeChars_of_strip? (SourcePath.strip?_point _)).symm

end Below

/-! ## Files in scope -/

/-- The path of a file from the project root.  Below a relative source root it is the source root
continued by the names of the file, with slashes not doubled.  Below an absolute one it is what is
left of the path of the file, if the project root is in front of it. -/
def relativePath? (projectRoot sourceRoot : String) (names : List String) : Option String :=
  if isAbsolute sourceRoot then
    Path.below? projectRoot (Path.join (spelled sourceRoot) (ofNames names))
  else some (ofNames ((Path.pieces sourceRoot).filter (· ≠ "") ++ names))

/-- The canonical form of a path in which backslashes may stand for slashes. -/
def canonical (path : String) : String :=
  SourcePath.normalize (String.ofList (replaceChar '\\' '/' path.toList))

/-- Whether some names lead to a file below the source root of a project that is to be seeded under
a path: its bytes are text, and its path from the project root is in scope. -/
structure IsInScope (d : Disk) (filter : SourceFilter) (projectRoot sourceRoot : String)
    (names : List String) (path text : String) : Prop where
  /-- The names lead down to a file. -/
  areNames : AreNames names
  /-- It can be read as text. -/
  text : d.readText (Path.join (Path.join projectRoot sourceRoot) (ofNames names)) = .ok text
  /-- It is seeded under the canonical form of its path from the project root. -/
  under : (relativePath? projectRoot sourceRoot names).map canonical = some path
  /-- The canonical path is in scope. -/
  scope : filter.includes path

/-- Whether a walk spells its files as the project root is spelled.  The source root is absolute, or
the project root is there and not spelled with a point in front, or there is no project root but
a place to start the walk from. -/
def IsWalkable (projectRoot sourceRoot : String) : Prop :=
  isAbsolute sourceRoot = true ∨
    if projectRoot = "" then (walkRoot? sourceRoot).isSome = true
    else (split '/' projectRoot.toList).head? ≠ some ['.']

section InScope

variable {d : Disk} {filter : SourceFilter} {root path text projectRoot sourceRoot : String}
  {names : List String}

theorem pathInScope?_eq_some_iff {file : String} :
    pathInScope? filter projectRoot file = some path ↔
      (Path.below? projectRoot file).map canonical = some path ∧ filter.includes path := by
  unfold pathInScope?
  cases Path.below? projectRoot file with
  | none => simp
  | some relative =>
      simp only [Option.bind_eq_bind, Option.bind_some, Option.map_some, Option.some.injEq]
      constructor
      · intro h
        obtain ⟨hscope, hpath⟩ := Option.ite_none_right_eq_some.1 h
        cases hpath
        exact ⟨rfl, hscope⟩
      · rintro ⟨rfl, hscope⟩
        exact if_pos hscope

theorem canonical_remainder (hnames : AreNames names) (sourceRoot : String) :
    canonical (remainder sourceRoot names)
      = canonical (ofNames ((Path.pieces sourceRoot).filter (· ≠ "") ++ names)) := by
  have hpieces : ((Path.pieces sourceRoot).filter (· ≠ "")).map String.toList
      = (split '/' sourceRoot.toList).filter (· ≠ []) := by
    have hchars : String.toList ∘ String.ofList = id := funext fun _ => String.toList_ofList
    rw [Path.pieces, List.filter_map, List.map_map, hchars, List.map_id]
    refine List.filter_congr fun piece _ => decide_eq_decide.2 (not_congr ?_)
    rw [← String.toList_inj, String.toList_ofList]
    rfl
  have hne : names.map String.toList ≠ [] := by simpa using hnames.notEmpty
  have hnormalize := normalizeChars_dropWhile hne (split '/' sourceRoot.toList)
  rw [canonical, canonical, SourcePath.normalize, SourcePath.normalize, remainder,
    String.toList_ofList, String.toList_ofList, String.toList_ofList, toList_ofNames,
    List.map_append, hpieces, hnormalize]

/-- A walk finds the path of a file from the project root. -/
theorem below?_of_isWalkable (hroots : projectRoot ≠ "" ∨ sourceRoot ≠ "")
    (hwalkable : IsWalkable projectRoot sourceRoot) :
    ∃ root, walkRoot? (Path.join projectRoot sourceRoot) = some root ∧
      Spells root (Path.join projectRoot sourceRoot) ∧
      ∀ names, AreNames names →
        (Path.below? projectRoot (Path.join root (ofNames names))).map canonical
          = (relativePath? projectRoot sourceRoot names).map canonical := by
  cases habsolute : isAbsolute sourceRoot with
  | true =>
      have hne : sourceRoot ≠ "" := by
        rintro rfl
        cases habsolute
      have hhead : (split '/' sourceRoot.toList).head? ≠ some ['.'] := by
        rw [(isAbsolute_iff_head? hne).1 habsolute]
        simp
      have hjoin : Path.join projectRoot sourceRoot = sourceRoot := by
        simp [Path.join, habsolute]
      rw [hjoin]
      refine ⟨_, walkRoot?_of_head? hne hhead, spells_spelled hne hhead, fun names _ => ?_⟩
      rw [relativePath?, if_pos habsolute]
  | false =>
      have hwalkable := hwalkable.resolve_left (by simp [habsolute])
      by_cases hproject : projectRoot = ""
      · subst hproject
        have hne : sourceRoot ≠ "" := hroots.resolve_left (by simp)
        rw [if_pos rfl] at hwalkable
        obtain ⟨root, hroot⟩ := Option.isSome_iff_exists.1 hwalkable
        have hspells := spells_of_walkRoot? hne hroot
        rw [join_empty]
        refine ⟨root, hroot, hspells, fun names hnames => ?_⟩
        rw [hspells.below?_empty habsolute hne hnames, Option.map_some,
          canonical_remainder hnames, relativePath?, if_neg (by simp [habsolute]), Option.map_some]
      · rw [if_neg hproject] at hwalkable
        have hne := join_ne_empty_of_left hproject habsolute
        have hhead : (split '/' (Path.join projectRoot sourceRoot).toList).head? ≠ some ['.'] := by
          rwa [head?_join hproject habsolute]
        have hspells := spells_spelled hne hhead
        refine ⟨_, walkRoot?_of_head? hne hhead, hspells, fun names hnames => ?_⟩
        rw [hspells.below? habsolute hproject hwalkable hnames, Option.map_some,
          canonical_remainder hnames, relativePath?, if_neg (by simp [habsolute]), Option.map_some]

/-- Below a project root that is spelled with a point in front nothing has a path from it. -/
theorem below?_of_not_isWalkable (hwalkable : ¬ IsWalkable projectRoot sourceRoot)
    (hroot : walkRoot? (Path.join projectRoot sourceRoot) = some root) (hnames : AreNames names) :
    Path.below? projectRoot (Path.join root (ofNames names)) = none := by
  obtain ⟨habsolute, hpoint⟩ := not_or.1 hwalkable
  have hsource : isAbsolute sourceRoot = false := Bool.eq_false_iff.2 habsolute
  by_cases hproject : projectRoot = ""
  · subst hproject
    rw [join_empty] at hroot
    simp [hroot] at hpoint
  · rw [if_neg hproject, not_not] at hpoint
    have hpath := join_ne_empty_of_left hproject hsource
    have hrelative : isAbsolute projectRoot = false := by
      rw [Bool.eq_false_iff, ne_eq, isAbsolute_iff_head? hproject, hpoint]
      simp
    have hcomponents := (spells_of_walkRoot? hpath hroot).components hpath hnames
    rw [isAbsolute_join, hrelative, hsource] at hcomponents
    have hstarts : ¬ (Path.components projectRoot).isPrefixOf
        (Path.components (Path.join root (ofNames names))) = true := by
      rw [List.isPrefixOf_iff_prefix, hcomponents, components_eq, Path.start, hrelative,
        if_neg (by simp), if_pos hpoint, if_neg (by simp), List.nil_append]
      intro h
      have hmem := h.subset (List.mem_cons_self (a := Component.current))
      obtain ⟨piece, -, hpiece⟩ := List.mem_map.1 hmem
      unfold Component.ofPiece at hpiece
      split at hpiece
      · cases hpiece
      · cases hpiece
    unfold Path.below?
    rw [if_neg hstarts]

end InScope

end Seed

end BundleCoverage
