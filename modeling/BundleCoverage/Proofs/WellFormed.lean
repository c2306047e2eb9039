import BundleCoverage.Proofs.Calls

/-!
# Coverage maps in order

Whatever calls build it, a coverage map holds sources in scope under canonical paths.  A
statement lies on its line, and no statement, function or branch ends before it starts.  A
record has the path under which it is found, a function starts at the position under which it
is found, and a branch has its location for a key (`CoverageMap.WellFormed`).

What is new is entered with its key: a record with its path, and functions and branches with
their locations.  Each addition to a record keeps it in order if what is added is, and all that
seeds and findings add is, so a map is in order after every sequence of calls
(`Merger.wellFormed_performAll`).
-/

namespace BundleCoverage

open Std

/-! ## Records in order -/

/-- A statement of a line that is counted from one lies on this line, and its columns do not
end before they start. -/
structure StatementRecord.WellFormed (s : StatementRecord) (line : Nat) : Prop where
  /-- Lines are counted from one. -/
  fromOne : 1 ≤ line
  /-- The statement starts on its line. -/
  start : s.location.start.line = line
  /-- The statement ends on its line. -/
  stop : s.location.stop.line = line
  /-- The columns do not end before they start. -/
  columns : s.location.start.column ≤ s.location.stop.column

/-- A function that is found by a position starts there.  It does not end before it starts, and
has a name. -/
structure FunctionRecord.WellFormed (g : FunctionRecord) (start : Position) : Prop where
  /-- The function starts at the position. -/
  start : g.location.start = start
  /-- The function does not end before it starts. -/
  forward : g.location.IsForward
  /-- The function has a name. -/
  named : g.name ≠ ""

/-- A branch that is found by a location has it, and does not end before it starts. -/
structure BranchRecord.WellFormed (b : BranchRecord) (location : Location) : Prop where
  /-- The branch has the location. -/
  location : b.location = location
  /-- The branch does not end before it starts. -/
  forward : b.location.IsForward

/-- A record that is found by a path has it, and its statements, functions and branches are in
order. -/
structure FileRecord.WellFormed (f : FileRecord) (path : String) : Prop where
  /-- The record has the path. -/
  path : f.path = path
  /-- The statements lie on their lines. -/
  statement : ∀ line (s : StatementRecord), f.statements[line]? = some s → s.WellFormed line
  /-- The functions start where they are found. -/
  function : ∀ start (g : FunctionRecord), f.functions[start]? = some g → g.WellFormed start
  /-- The branches have the locations by which they are found. -/
  branch : ∀ location (b : BranchRecord), f.branches[location]? = some b → b.WellFormed location

/-- A statement that grows to hold other columns stays in order. -/
theorem StatementRecord.WellFormed.add {s : StatementRecord} {line : Nat} (h : s.WellFormed line)
    (other : StatementRecord) : (s.add other).WellFormed line where
  fromOne := h.fromOne
  start := h.start
  stop := h.stop
  columns :=
    calc min s.location.start.column other.location.start.column
      _ ≤ s.location.start.column := Nat.min_le_left ..
      _ ≤ s.location.stop.column := h.columns
      _ ≤ max s.location.stop.column other.location.stop.column := Nat.le_max_left ..

/-- A function that is new to a record gets a name. -/
theorem name_ne_empty (name : Option String) (before : Nat) :
    (name.filter (· ≠ "")).getD (anonymousName before) ≠ "" := by
  cases hname : name.filter (· ≠ "") with
  | some given => simpa using (Option.filter_eq_some_iff.1 hname).2
  | none =>
      intro hempty
      have hlength := congrArg String.length hempty
      simp [anonymousName] at hlength

/-- More hits leave a function in order. -/
theorem FunctionRecord.WellFormed.setHits {g : FunctionRecord} {start : Position}
    (h : g.WellFormed start) (hits : Nat) : FunctionRecord.WellFormed { g with hits } start :=
  ⟨h.start, h.forward, h.named⟩

/-- More hits leave a branch in order. -/
theorem BranchRecord.WellFormed.setHits {b : BranchRecord} {location : Location}
    (h : b.WellFormed location) (hits : Nat) :
    BranchRecord.WellFormed { b with hits } location :=
  ⟨h.location, h.forward⟩

namespace FileRecord

variable {f : FileRecord} {path : String}

theorem wellFormed_empty (path : String) : (empty path).WellFormed path where
  path := rfl
  statement line s h := by simp at h
  function start g h := by simp at h
  branch location b h := by simp at h

theorem WellFormed.addStatement (h : f.WellFormed path) {line start stop : Nat} (hline : 1 ≤ line)
    (hcolumns : start ≤ stop) (hits : Nat) :
    (f.addStatement line (.onLine line start stop) hits).WellFormed path where
  path := h.path
  statement := by
    refine forall_getElem?_alter (Q := fun n s => StatementRecord.WellFormed s n) h.statement ?_
    cases hold : f.statements[line]? with
    | none =>
        have hnew : StatementRecord.WellFormed ⟨.onLine line start stop, 0⟩ line :=
          ⟨hline, rfl, rfl, hcolumns⟩
        exact hnew.add ⟨.onLine line start stop, hits⟩
    | some old => exact (h.statement line old hold).add ⟨.onLine line start stop, hits⟩
  function := h.function
  branch := h.branch

theorem WellFormed.addFunction (h : f.WellFormed path) {location : Location}
    (hforward : location.IsForward) (name : Option String) (hits : Nat) :
    (f.addFunction name location hits).WellFormed path where
  path := h.path
  statement := h.statement
  function := by
    refine forall_getElem?_alter (Q := fun q g => FunctionRecord.WellFormed g q) h.function ?_
    cases hold : f.functions[location.start]? with
    | none => exact ⟨rfl, hforward, name_ne_empty name f.functions.size⟩
    | some old => exact (h.function location.start old hold).setHits _
  branch := h.branch

theorem WellFormed.addBranch (h : f.WellFormed path) {location : Location}
    (hforward : location.IsForward) (hits : Nat) :
    (f.addBranch location hits).WellFormed path where
  path := h.path
  statement := h.statement
  function := h.function
  branch := by
    refine forall_getElem?_alter (Q := fun l b => BranchRecord.WellFormed b l) h.branch ?_
    cases hold : f.branches[location]? with
    | none => exact ⟨rfl, hforward⟩
    | some old => exact (h.branch location old hold).setHits _

/-- A text leaves a record in order. -/
theorem WellFormed.setText (h : f.WellFormed path) (text : Option String) :
    FileRecord.WellFormed { f with text } path :=
  ⟨h.path, h.statement, h.function, h.branch⟩

end FileRecord

/-! ## Shares in order -/

/-- The lines, functions and blocks of a share are in order. -/
structure Share.WellFormed (s : Share) : Prop where
  /-- Lines are counted from one, and their columns do not end before they start. -/
  line : ∀ n (l : LineShare), s.lines[n]? = some l → 1 ≤ n ∧ l.start ≤ l.stop
  /-- The functions do not end before they start. -/
  call : ∀ call ∈ s.calls, call.2.1.IsForward
  /-- The blocks do not end before they start. -/
  block : ∀ block ∈ s.blocks, block.1.IsForward

namespace Share

variable {s : Share}

theorem wellFormed_empty (text : Option String) : Share.WellFormed { text } where
  line n l h := by simp at h
  call call h := by simp at h
  block block h := by simp at h

theorem WellFormed.observe (h : s.WellFormed) {o : Observation} (ho : o.WellFormed) :
    (s.observe o).WellFormed := by
  cases o with
  | presence => exact h
  | line number start stop count =>
      obtain ⟨hnumber, hcolumns⟩ := ho
      refine ⟨fun n l hl => ?_, h.call, h.block⟩
      rw [lines_observe, Observation.lineAt?] at hl
      by_cases hn : number = n
      · subst hn
        rw [if_pos rfl] at hl
        cases hold : s.lines[number]? with
        | none =>
            rw [hold, Option.merge_none_left] at hl
            cases hl
            exact ⟨hnumber, hcolumns⟩
        | some old =>
            rw [hold, Option.merge_some_some] at hl
            cases hl
            have hstart : min old.start start ≤ start := Nat.min_le_right ..
            have hstop : stop ≤ max old.stop stop := Nat.le_max_right ..
            exact ⟨hnumber, Nat.le_trans hstart (Nat.le_trans hcolumns hstop)⟩
      · rw [if_neg hn, Option.merge_none_right] at hl
        exact h.line n l hl
  | call name location count =>
      refine ⟨h.line, fun call hcall => ?_, h.block⟩
      rcases List.mem_append.1 hcall with hold | hnew
      · exact h.call call hold
      · rw [List.mem_singleton.1 hnew]
        exact ho
  | block location count =>
      refine ⟨h.line, h.call, fun block hblock => ?_⟩
      rcases List.mem_append.1 hblock with hold | hnew
      · exact h.block block hold
      · rw [List.mem_singleton.1 hnew]
        exact ho

theorem wellFormed_ofFindings {findings : List Finding}
    (h : ∀ f ∈ findings, f.seen.WellFormed) {path : String}
    (hs : (ofFindings findings)[path]? = some s) : s.WellFormed := by
  rw [getElem?_ofFindings] at hs
  refine List.foldlRecOn (motive := fun o : Option Share => ∀ s ∈ o, s.WellFormed)
    _ _ ?_ ?_ s hs
  · rintro s ⟨⟩
  · rintro old hold f hf s ⟨⟩
    have hseen := h f (List.mem_filter.1 hf).1
    cases old with
    | none => exact (wellFormed_empty f.text).observe hseen
    | some old => exact (hold old rfl).observe hseen

end Share

theorem FileRecord.WellFormed.addShare {f : FileRecord} {path : String} (h : f.WellFormed path)
    {s : Share} (hs : s.WellFormed) : (f.addShare s).WellFormed path := by
  refine addShare_induction (P := (FileRecord.WellFormed · path)) ?_ ?_ ?_ ?_ h
  · intro f n l hl hf
    obtain ⟨hline, hcolumns⟩ := hs.line n l hl
    exact hf.addStatement hline (Nat.le_trans hcolumns (Nat.le_max_left ..)) l.count
  · intro f name location count hcall hf
    exact hf.addFunction (hs.call _ hcall) (some name) count
  · intro f location count hblock hf
    exact hf.addBranch (hs.block _ hblock) count
  · intro f hf
    exact hf.setText _

theorem FileRecord.WellFormed.addSeed {f : FileRecord} {path : String} (h : f.WellFormed path)
    (s : Seed) : (f.addSeed s).WellFormed path := by
  refine addSeed_induction (P := (FileRecord.WellFormed · path)) ?_ ?_ h
  · intro f l hl hf
    obtain ⟨hline, hcolumns⟩ := bounds_of_mem_codeLines hl
    exact hf.addStatement hline hcolumns 0
  · intro f hf
    exact hf.setText _

/-! ## Maps in order -/

/-- A map holds sources in scope under canonical paths, and their records are in order. -/
structure CoverageMap.WellFormed (filter : SourceFilter) (m : CoverageMap) : Prop where
  /-- The sources are in scope. -/
  inScope : ∀ path f, m.get? path = some f → filter.includes path
  /-- The paths are canonical. -/
  canonical : ∀ path f, m.get? path = some f → SourcePath.normalize path = path
  /-- The records have these paths, and are in order. -/
  record : ∀ path f, m.get? path = some f → f.WellFormed path

namespace CoverageMap

variable {m : CoverageMap} {filter : SourceFilter}

theorem wellFormed_empty (filter : SourceFilter) : CoverageMap.WellFormed filter {} where
  inScope path f h := by simp at h
  canonical path f h := by simp at h
  record path f h := by simp at h

theorem WellFormed.getD (h : m.WellFormed filter) (path : String) :
    ((m.get? path).getD (.empty path)).WellFormed path := by
  cases hfile : m.get? path with
  | none => exact FileRecord.wellFormed_empty path
  | some f => exact h.record path f hfile

/-- A map in order has each record under its own path, where reports look for it. -/
theorem WellFormed.pathsAgree (h : m.WellFormed filter) : m.PathsAgree := fun path f hf =>
  (h.record path f hf).path

/-- A change of one record that keeps it in order, under a canonical path in scope, keeps the
map in order. -/
theorem WellFormed.of_get? (h : m.WellFormed filter) {m' : CoverageMap}
    (hget : ∀ path f, m'.get? path = some f → m.get? path = some f ∨
      filter.includes path ∧ SourcePath.normalize path = path ∧ f.WellFormed path) :
    m'.WellFormed filter := by
  refine ⟨fun path f hf => ?_, fun path f hf => ?_, fun path f hf => ?_⟩
  · rcases hget path f hf with hold | hnew
    · exact h.inScope path f hold
    · exact hnew.1
  · rcases hget path f hf with hold | hnew
    · exact h.canonical path f hold
    · exact hnew.2.1
  · rcases hget path f hf with hold | hnew
    · exact h.record path f hold
    · exact hnew.2.2

theorem WellFormed.addSeed (h : m.WellFormed filter) {s : Seed} (hscope : filter.includes s.path)
    (hcanonical : SourcePath.normalize s.path = s.path) : (m.addSeed s).WellFormed filter := by
  refine h.of_get? fun path f hf => ?_
  rw [CoverageMap.addSeed, get?_update] at hf
  by_cases hpath : s.path = path
  · subst hpath
    rw [if_pos rfl] at hf
    cases hf
    exact .inr ⟨hscope, hcanonical, (h.getD s.path).addSeed s⟩
  · rw [if_neg hpath] at hf
    exact .inl hf

theorem WellFormed.addFindings (h : m.WellFormed filter) {findings : List Finding}
    (hfindings : ∀ f ∈ findings, ∃ s, Finding.WellFormed s filter f) :
    (m.addFindings findings).WellFormed filter := by
  refine h.of_get? fun path f hf => ?_
  rw [CoverageMap.addFindings, get?_addShares] at hf
  cases hshare : (Share.ofFindings findings)[path]? with
  | none =>
      rw [hshare] at hf
      exact .inl hf
  | some s =>
      rw [hshare] at hf
      cases hf
      obtain ⟨f, hf, rfl⟩ := Share.exists_of_ofFindings hshare
      obtain ⟨script, hscope, hsource, -⟩ := hfindings f hf
      have hseen : ∀ f ∈ findings, f.seen.WellFormed := by
        intro f hf
        obtain ⟨script, hfinding⟩ := hfindings f hf
        exact hfinding.seen
      exact .inr ⟨hscope, hsource.canonical,
        (h.getD f.path).addShare (Share.wellFormed_ofFindings hseen hshare)⟩

end CoverageMap

/-- A map is in order after every sequence of calls of a new merger. -/
theorem Merger.wellFormed_performAll (resolver : Resolver) (filter : SourceFilter)
    (calls : List Call) :
    (({ resolver, filter } : Merger).performAll calls).map.WellFormed filter :=
  performAll_induction (P := CoverageMap.WellFormed filter)
    (fun _ _ hscope hcanonical h => h.addSeed hscope hcanonical)
    (fun _ _ hfindings h => h.addFindings hfindings) calls (CoverageMap.wellFormed_empty filter)

end BundleCoverage
