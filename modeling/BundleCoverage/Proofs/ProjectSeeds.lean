import BundleCoverage.Proofs.Growth
import BundleCoverage.Proofs.WalkedPaths

/-!
# The seeds of a project

A walk from a directory lists each file below it once (`Seed.seededNames`), so where a walk spells its
files as the project root is spelled, the seeds are the files in scope (`Seed.exists_files`), and
seeding enters these with their lines that have code (`Merger.SeedsAll`).  Below a project root that
is spelled with a point in front there are no seeds at all (`Merger.seed_complete`), whatever the
point leads to (`Merger.not_seedsAll_of_point`).
-/

namespace BundleCoverage

open Text BundleCoverage.Path

namespace Seed

/-! ## Walks -/

section Walk

variable {d : Disk} {filter : SourceFilter} {root path text projectRoot sourceRoot : String}
  {names : List String}

theorem sameWay_point : SameWay "." "" := ⟨rfl, rfl⟩

theorem sameWay_start (root : String) : SameWay (if root.isEmpty then "." else root) root := by
  by_cases hroot : root = ""
  · subst hroot
    exact sameWay_point
  · rw [if_neg (by simpa using hroot)]
    exact ⟨rfl, rfl⟩

theorem start_ne_empty (root : String) : (if root.isEmpty then "." else root) ≠ "" := by
  split
  · simp
  · next h => simpa using h

/-- A walk from a directory lists the files below it. -/
theorem walk_of_opens (h : d.Opens root) :
    walk d root
      = (d.filesBelow (d.target root)).map fun f => Path.join root (ofNames f.1) := by
  obtain ⟨p, hp, hnode⟩ := (Disk.opens_iff (start_ne_empty root)).1 ((sameWay_start root).opens.2 h)
  have htarget : p = d.target root := by
    rw [(Disk.locate_eq_ok_iff.1 hp).2.2, (sameWay_start root).target]
  subst htarget
  unfold walk
  simp only [hp, Disk.isDirectoryAt_eq_true_iff.2 hnode, if_true]
  rfl

theorem walk_of_not_opens (h : ¬ d.Opens root) : walk d root = [] := by
  unfold walk
  split
  · rfl
  · next p hp =>
    rw [if_neg]
    intro hnode
    have hopens := (Disk.opens_iff (start_ne_empty root)).2
      ⟨p, hp, Disk.isDirectoryAt_eq_true_iff.1 hnode⟩
    exact h ((sameWay_start root).opens.1 hopens)

/-- The seed in a file, if its path from the project root is in scope and its bytes are text. -/
def seed? (d : Disk) (filter : SourceFilter) (projectRoot file : String) : Option Seed :=
  (pathInScope? filter projectRoot file).bind fun path =>
    (d.readText file).toOption.map (⟨path, ·⟩)

theorem ofProject_eq (d : Disk) (filter : SourceFilter) (projectRoot sourceRoot : String) :
    ofProject d filter projectRoot sourceRoot
      = (filesOf d projectRoot sourceRoot).filterMap (seed? d filter projectRoot) := by
  rw [ofProject, candidates, List.filterMap_filterMap]
  congr 1
  funext file
  unfold seed?
  cases pathInScope? filter projectRoot file with
  | none => rfl
  | some path => rfl

theorem seed?_eq_some_iff {file : String} {s : Seed} :
    seed? d filter projectRoot file = some s ↔
      pathInScope? filter projectRoot file = some s.path ∧ d.readText file = .ok s.text := by
  simp only [seed?, Option.bind_eq_some_iff, Option.map_eq_some_iff, toOption_eq_some_iff]
  constructor
  · rintro ⟨path, hpath, text, htext, rfl⟩
    exact ⟨hpath, htext⟩
  · rintro ⟨hpath, htext⟩
    exact ⟨s.path, hpath, s.text, htext, rfl⟩

theorem readText_eq_ok_iff {file : String} :
    d.readText file = .ok text ↔
      ∃ bytes, d.read file = .ok bytes ∧ Utf8.strict? bytes = some text := by
  unfold Disk.readText
  rw [bind_eq_ok_iff]
  refine exists_congr fun bytes => and_congr_right fun _ => ?_
  cases Utf8.strict? bytes with
  | none => simp [throw, throwThe, MonadExceptOf.throw]
  | some found => simp [pure, Except.pure]

/-- A file is read alike under two paths that lead the same way. -/
theorem readText_congr {other : String} (hd : d.WellFormed) (h : SameWay root other)
    (hnames : AreNames names) :
    d.readText (Path.join root (ofNames names)) = .ok text ↔
      d.readText (Path.join other (ofNames names)) = .ok text := by
  simp only [readText_eq_ok_iff, Disk.read_join_names hd hnames, h.opens, h.target]

/-- Without names there is only the directory, which is no seed. -/
theorem seed?_nil (h : d.Opens root) :
    seed? d filter projectRoot (Path.join root (ofNames [])) = none := by
  have hsame : SameWay (Path.join root "") root := by
    by_cases hroot : root = ""
    · subst hroot
      exact ⟨rfl, rfl⟩
    · refine ⟨?_, ?_⟩
      · rw [isAbsolute_join]
        exact Bool.or_false _
      · rw [moves_join hroot rfl]
        exact List.append_nil _
  rw [Option.eq_none_iff_forall_ne_some]
  intro s hs
  obtain ⟨bytes, hread, -⟩ := readText_eq_ok_iff.1 (seed?_eq_some_iff.1 hs).2
  obtain ⟨p, hp, hnode⟩ := Disk.read_eq_ok_iff.1 hread
  have htarget : p = d.target root := by
    rw [(Disk.locate_eq_ok_iff.1 hp).2.2]
    exact hsame.target
  rw [htarget, h.target] at hnode
  cases hnode

/-- The names of the files below a directory that hold a seed. -/
def seededNames (d : Disk) (filter : SourceFilter) (projectRoot root : String) :
    List (List String) :=
  ((d.filesBelow (d.target root)).filter
    fun f => (seed? d filter projectRoot (Path.join root (ofNames f.1))).isSome).map (·.1)

theorem nodup_seededNames (d : Disk) (filter : SourceFilter) (projectRoot root : String) :
    (seededNames d filter projectRoot root).Nodup :=
  (d.nodup_filesBelow _).sublist (List.filter_sublist.map _)

theorem mem_seededNames (hd : d.WellFormed) (hopens : d.Opens root) :
    names ∈ seededNames d filter projectRoot root ↔
      AreNames names ∧ ∃ s, seed? d filter projectRoot (Path.join root (ofNames names)) = some s := by
  simp only [seededNames, List.mem_map, List.mem_filter, Option.isSome_iff_exists]
  constructor
  · rintro ⟨⟨names, bytes⟩, ⟨hmem, s, hs⟩, rfl⟩
    have hne : names ≠ [] := by
      rintro rfl
      rw [seed?_nil hopens] at hs
      cases hs
    have hnode : d.node? (d.target root ++ names) = some (.file bytes) := by
      rw [Disk.node?, if_neg (by simp [hne])]
      exact Disk.mem_filesBelow.1 hmem
    exact ⟨⟨hne, fun name hname => hd.isName _ _ hnode name (List.mem_append_right _ hname)⟩, s, hs⟩
  · rintro ⟨hnames, s, hs⟩
    obtain ⟨bytes, hread, -⟩ := readText_eq_ok_iff.1 (seed?_eq_some_iff.1 hs).2
    have hnode := ((Disk.read_join_names hd hnames).1 hread).2
    rw [Disk.node?, if_neg (by simp [hnames.notEmpty])] at hnode
    exact ⟨(names, bytes), ⟨Disk.mem_filesBelow.2 hnode, s, hs⟩, rfl⟩

/-- The seeds in the files below a directory are those under their names. -/
theorem filterMap_walk (hopens : d.Opens root) :
    (walk d root).filterMap (seed? d filter projectRoot)
      = (seededNames d filter projectRoot root).filterMap
          fun names => seed? d filter projectRoot (Path.join root (ofNames names)) := by
  rw [walk_of_opens hopens, seededNames, List.filterMap_map, List.filterMap_map,
    List.filterMap_filter]
  refine List.filterMap_congr fun f _ => ?_
  show seed? d filter projectRoot (Path.join root (ofNames f.1)) = _
  cases hseed : seed? d filter projectRoot (Path.join root (ofNames f.1)) with
  | none => rfl
  | some s =>
      rw [Option.isSome_some, if_pos rfl]
      exact hseed.symm

/-- Where a walk finds the path of a file from the project root, the file holds a seed just if it is
in scope. -/
theorem seed?_iff_isInScope (hd : d.WellFormed) (hnames : AreNames names)
    (hsame : SameWay root (Path.join projectRoot sourceRoot))
    (hbelow : (Path.below? projectRoot (Path.join root (ofNames names))).map canonical
      = (relativePath? projectRoot sourceRoot names).map canonical) :
    seed? d filter projectRoot (Path.join root (ofNames names)) = some ⟨path, text⟩ ↔
      IsInScope d filter projectRoot sourceRoot names path text := by
  rw [seed?_eq_some_iff, pathInScope?_eq_some_iff, hbelow, readText_congr hd hsame hnames]
  constructor
  · rintro ⟨⟨hunder, hscope⟩, htext⟩
    exact ⟨hnames, htext, hunder, hscope⟩
  · intro h
    exact ⟨⟨h.under, h.scope⟩, h.text⟩

/-- A file in scope lies below a directory. -/
theorem IsInScope.opens (hd : d.WellFormed)
    (h : IsInScope d filter projectRoot sourceRoot names path text) :
    d.Opens (Path.join projectRoot sourceRoot) := by
  obtain ⟨bytes, hread, -⟩ := readText_eq_ok_iff.1 h.text
  exact ((Disk.read_join_names hd h.areNames).1 hread).1

/-- The seeds of a project are the files in scope, each once. -/
theorem exists_files (hd : d.WellFormed) (filter : SourceFilter)
    (hroots : projectRoot ≠ "" ∨ sourceRoot ≠ "") (hwalkable : IsWalkable projectRoot sourceRoot) :
    ∃ files : List (List String), files.Nodup ∧
      (∀ names, names ∈ files ↔
        ∃ path text, IsInScope d filter projectRoot sourceRoot names path text) ∧
      (ofProject d filter projectRoot sourceRoot).length = files.length ∧
      ∀ path text, ⟨path, text⟩ ∈ ofProject d filter projectRoot sourceRoot ↔
        ∃ names, IsInScope d filter projectRoot sourceRoot names path text := by
  obtain ⟨root, hroot, hspells, hbelow⟩ := below?_of_isWalkable hroots hwalkable
  have hseed {names : List String} {path text : String} (hnames : AreNames names) :
      seed? d filter projectRoot (Path.join root (ofNames names)) = some ⟨path, text⟩ ↔
        IsInScope d filter projectRoot sourceRoot names path text :=
    seed?_iff_isInScope hd hnames hspells.sameWay (hbelow names hnames)
  have hfiles : filesOf d projectRoot sourceRoot = walk d root := by
    unfold filesOf
    simp only [hroot]
  rw [ofProject_eq, hfiles]
  by_cases hopens : d.Opens root
  · have hmem (names : List String) : names ∈ seededNames d filter projectRoot root ↔
        ∃ path text, IsInScope d filter projectRoot sourceRoot names path text := by
      rw [mem_seededNames hd hopens]
      constructor
      · rintro ⟨hnames, s, hs⟩
        exact ⟨s.path, s.text, (hseed hnames).1 hs⟩
      · rintro ⟨path, text, h⟩
        exact ⟨h.areNames, _, (hseed h.areNames).2 h⟩
    rw [filterMap_walk hopens]
    refine ⟨_, nodup_seededNames d filter projectRoot root, hmem, ?_, fun path text => ?_⟩
    · rw [List.length_filterMap_eq_countP, List.countP_eq_length]
      intro names hnames
      obtain ⟨-, s, hs⟩ := (mem_seededNames hd hopens).1 hnames
      rw [hs]
      rfl
    · rw [List.mem_filterMap]
      constructor
      · rintro ⟨names, hnames, hs⟩
        exact ⟨names, (hseed ((mem_seededNames hd hopens).1 hnames).1).1 hs⟩
      · rintro ⟨names, h⟩
        exact ⟨names, (hmem names).2 ⟨path, text, h⟩, (hseed h.areNames).2 h⟩
  · -- nothing is in scope below a place that cannot be listed
    have hnone (names : List String) (path text : String) :
        ¬ IsInScope d filter projectRoot sourceRoot names path text :=
      fun h => hopens (hspells.sameWay.opens.2 (h.opens hd))
    rw [walk_of_not_opens hopens]
    exact ⟨[], List.nodup_nil, by simp [hnone], rfl, by simp [hnone]⟩

/-- A project root that is spelled with a point in front has no seeds. -/
theorem ofProject_of_not_isWalkable (hd : d.WellFormed) (filter : SourceFilter)
    (hwalkable : ¬ IsWalkable projectRoot sourceRoot) :
    ofProject d filter projectRoot sourceRoot = [] := by
  rw [ofProject_eq]
  unfold filesOf
  split
  · rfl
  · next root hroot =>
    by_cases hopens : d.Opens root
    · rw [filterMap_walk hopens, List.filterMap_eq_nil_iff]
      intro names hnames
      have hnames := ((mem_seededNames hd hopens).1 hnames).1
      have hbelow := below?_of_not_isWalkable hwalkable hroot hnames
      unfold seed? pathInScope?
      rw [hbelow]
      rfl
    · rw [walk_of_not_opens hopens]
      rfl

end Walk

end Seed

/-! ## Maps with seeds -/

namespace FileRecord

/-- A record with some lines that were not executed. -/
def addCodeLines (f : FileRecord) (lines : List CodeLine) : FileRecord :=
  lines.foldl (fun f l => f.addStatement l.line (.onLine l.line l.start l.stop) 0) f

theorem isSome_statements_addCodeLines (f : FileRecord) (lines : List CodeLine) (n : Nat) :
    (f.addCodeLines lines).statements[n]?.isSome ↔
      f.statements[n]?.isSome ∨ ∃ l ∈ lines, l.line = n := by
  induction lines generalizing f with
  | nil => simp [addCodeLines]
  | cons l lines ih =>
      have hcons : f.addCodeLines (l :: lines)
          = (f.addStatement l.line (.onLine l.line l.start l.stop) 0).addCodeLines lines := rfl
      rw [hcons, ih, statements_addStatement]
      by_cases hline : l.line = n
      · simp [hline]
      · simp [hline]

/-- A seed enters the lines of its text that have code. -/
theorem isSome_statements_addSeed (f : FileRecord) (s : Seed) (n : Nat) :
    (f.addSeed s).statements[n]?.isSome ↔
      f.statements[n]?.isSome ∨ ∃ l ∈ codeLines s.text, l.line = n :=
  f.isSome_statements_addCodeLines (codeLines s.text) n

end FileRecord

namespace CoverageMap

variable (m : CoverageMap) (path : String)

theorem contains_addSeed (s : Seed) :
    (m.addSeed s).contains path ↔ m.contains path ∨ s.path = path := by
  rw [contains_eq, contains_eq, addSeed, get?_update]
  by_cases hpath : s.path = path
  · simp [hpath]
  · simp [hpath]

theorem isSome_statement?_addSeed (s : Seed) (n : Nat) :
    ((m.addSeed s).statement? path n).isSome ↔
      (m.statement? path n).isSome ∨
        s.path = path ∧ ∃ l ∈ codeLines s.text, l.line = n := by
  rw [statement?, statement?, addSeed, get?_update]
  by_cases hpath : s.path = path
  · subst hpath
    rw [if_pos rfl, Option.bind_some, FileRecord.isSome_statements_addSeed]
    cases m.get? s.path with
    | none => simp
    | some f => simp
  · simp [hpath]

/-- Seeds add their files. -/
theorem contains_foldl_addSeed (seeds : List Seed) :
    (seeds.foldl addSeed m).contains path ↔ m.contains path ∨ ∃ s ∈ seeds, s.path = path := by
  induction seeds generalizing m with
  | nil => simp
  | cons s seeds ih => rw [List.foldl_cons, ih, contains_addSeed, List.exists_mem_cons_iff, or_assoc]

/-- Seeds add the lines of their files that have code. -/
theorem isSome_statement?_foldl_addSeed (seeds : List Seed) (n : Nat) :
    ((seeds.foldl addSeed m).statement? path n).isSome ↔
      (m.statement? path n).isSome ∨
        ∃ s ∈ seeds, s.path = path ∧ ∃ l ∈ codeLines s.text, l.line = n := by
  induction seeds generalizing m with
  | nil => simp
  | cons s seeds ih =>
      rw [List.foldl_cons, ih, isSome_statement?_addSeed, List.exists_mem_cons_iff, or_assoc]

end CoverageMap

/-! ## Mergers -/

namespace Merger

open Seed

/-- Seeding is complete: it enters each file in scope below the source root with the lines that
have code, and nothing else, and counts each file once. -/
structure SeedsAll (m : Merger) (d : Disk) (projectRoot sourceRoot : String) : Prop where
  /-- The files are those that were there, and the files in scope. -/
  files : ∀ path, (m.seed d projectRoot sourceRoot).2.map.contains path ↔
    m.map.contains path ∨ ∃ names text, IsInScope d m.filter projectRoot sourceRoot names path text
  /-- The lines are those that were there, and the lines with code of the files in scope. -/
  lines : ∀ path n, ((m.seed d projectRoot sourceRoot).2.map.statement? path n).isSome ↔
    (m.map.statement? path n).isSome ∨
      ∃ names text, IsInScope d m.filter projectRoot sourceRoot names path text ∧
        ∃ l ∈ codeLines text, l.line = n
  /-- The number is that of the files in scope. -/
  count : ∃ files : List (List String), files.Nodup ∧
    (∀ names, names ∈ files ↔
      ∃ path text, IsInScope d m.filter projectRoot sourceRoot names path text) ∧
    (m.seed d projectRoot sourceRoot).1 = files.length

/-- Seeding is complete where the walk spells its files as the project root is spelled.  Everywhere
else it enters nothing. -/
theorem seed_complete (m : Merger) {d : Disk} (hd : d.WellFormed) {projectRoot sourceRoot : String}
    (hroots : projectRoot ≠ "" ∨ sourceRoot ≠ "") :
    (IsWalkable projectRoot sourceRoot → m.SeedsAll d projectRoot sourceRoot) ∧
      (¬ IsWalkable projectRoot sourceRoot →
        (m.seed d projectRoot sourceRoot).1 = 0 ∧
          (m.seed d projectRoot sourceRoot).2.map = m.map) := by
  constructor
  · intro hwalkable
    obtain ⟨files, hnodup, hfiles, hlength, hseeds⟩ := exists_files hd m.filter hroots hwalkable
    refine ⟨fun path => ?_, fun path n => ?_, files, hnodup, hfiles, hlength⟩
    · refine (m.map.contains_foldl_addSeed path _).trans (or_congr_right ?_)
      constructor
      · rintro ⟨⟨_, text⟩, hs, rfl⟩
        obtain ⟨names, h⟩ := (hseeds _ text).1 hs
        exact ⟨names, text, h⟩
      · rintro ⟨names, text, h⟩
        exact ⟨⟨path, text⟩, (hseeds path text).2 ⟨names, h⟩, rfl⟩
    · refine (m.map.isSome_statement?_foldl_addSeed path _ n).trans (or_congr_right ?_)
      constructor
      · rintro ⟨⟨_, text⟩, hs, rfl, hline⟩
        obtain ⟨names, h⟩ := (hseeds _ text).1 hs
        exact ⟨names, text, h, hline⟩
      · rintro ⟨names, text, h, hline⟩
        exact ⟨⟨path, text⟩, (hseeds path text).2 ⟨names, h⟩, rfl, hline⟩
  · intro hwalkable
    have hseeds := ofProject_of_not_isWalkable hd m.filter hwalkable
    unfold seed
    rw [hseeds]
    exact ⟨rfl, rfl⟩

end Merger

/-! ## A project in the working directory -/

/-- A disk with a project of one source in the working directory. -/
def Disk.withProject : Disk :=
  { ((Disk.empty.set ["app"] .directory).set ["app", "src"] .directory).set ["app", "src", "a.ts"]
      (.file (Utf8.encode "f();")) with workingDirectory := ["app"] }

theorem Disk.wellFormed_withProject : Disk.withProject.WellFormed := by
  have happ : (Disk.empty.set ["app"] .directory).WellFormed :=
    wellFormed_empty.set (p := []) (by constructor <;> decide) rfl fun _ => rfl
  have hsrc : ((Disk.empty.set ["app"] .directory).set ["app", "src"] .directory).WellFormed := by
    refine happ.set (p := ["app"]) (by constructor <;> decide) ?_ fun _ => rfl
    decide
  have hfile : (((Disk.empty.set ["app"] .directory).set ["app", "src"] .directory).set
      ["app", "src", "a.ts"] (.file (Utf8.encode "f();"))).WellFormed := by
    refine hsrc.set (p := ["app", "src"]) (by constructor <;> decide) ?_ ?_
    · decide
    · decide
  exact ⟨hfile.isName, hfile.parent, by decide⟩

/-- Below a project root that starts at the root of the disk its source is seeded. -/
theorem Merger.seed_complete_of_absolute :
    (Merger.new ".next" .everything).SeedsAll .withProject "/app" "src" ∧
      ((Merger.new ".next" .everything).seed .withProject "/app" "src").1 = 1 := by
  have hwalkable : Seed.IsWalkable "/app" "src" := .inr (by decide)
  refine ⟨(seed_complete _ Disk.wellFormed_withProject (.inl (by decide))).1 hwalkable, ?_⟩
  decide +kernel

/-- Below the same project root, spelled with a point, it is not. -/
theorem Merger.not_seedsAll_of_point :
    ¬ ∀ (m : Merger) (d : Disk) (projectRoot sourceRoot : String), d.WellFormed →
      m.SeedsAll d projectRoot sourceRoot := by
  intro h
  have hall := h (.new ".next" .everything) .withProject "." "src" Disk.wellFormed_withProject
  have hfile : Seed.IsInScope .withProject .everything "." "src" ["a.ts"] "src/a.ts" "f();" := by
    have hname : IsName "a.ts" := by constructor <;> decide
    refine ⟨⟨by decide, List.forall_mem_singleton.2 hname⟩, ?_, ?_, ?_⟩
    · decide +kernel
    · decide +kernel
    · decide +kernel
  have hseeded := (hall.files "src/a.ts").2 (.inr ⟨_, _, hfile⟩)
  have hnone : ((Merger.new ".next" .everything).seed .withProject "." "src").2.map.contains
      "src/a.ts" = false := by
    decide +kernel
  rw [hnone] at hseeded
  cases hseeded

end BundleCoverage
