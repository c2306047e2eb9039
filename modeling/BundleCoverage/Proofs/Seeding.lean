import BundleCoverage.Proofs.Padding
import BundleCoverage.Proofs.Runs
import BundleCoverage.Run

/-!
# Seeding shows no coverage

Seeding enters files with lines that were not executed, and no functions or branches
(`FileRecord.Unexecuted`).  A merge that starts from there is compared with the one that
starts from nothing: what the second map holds is in the first with the same hits, and what
only the first holds was not executed (`CoverageMap.PaddedTo`).  Every addition to a record keeps
this, so the findings of an entry do, and a run does (`Run.merge_seeding`).

The summaries of two such maps have the same covered parts
(`CoverageMap.PaddedTo.within_summary`).
-/

namespace BundleCoverage

open Std

/-! ## Tallies -/

/-- The second tally has as many covered things as the first, and at least as many in all. -/
structure Tally.Within (small large : Tally) : Prop where
  /-- All things. -/
  total : small.total ≤ large.total
  /-- The covered ones. -/
  covered : large.covered = small.covered

/-- Each tally of the second summary has that of the first within it. -/
structure Summary.Within (small large : Summary) : Prop where
  /-- Original lines. -/
  lines : small.lines.Within large.lines
  /-- Statements. -/
  statements : small.statements.Within large.statements
  /-- Functions. -/
  functions : small.functions.Within large.functions
  /-- Branches. -/
  branches : small.branches.Within large.branches

theorem Tally.Within.refl (t : Tally) : t.Within t := ⟨Nat.le_refl _, rfl⟩

theorem Tally.Within.add {a b c d : Tally} (hab : a.Within b) (hcd : c.Within d) :
    (a.add c).Within (b.add d) where
  total := Nat.add_le_add hab.total hcd.total
  covered := by simp only [Tally.add, hab.covered, hcd.covered]

theorem Tally.add_right_comm (a b c : Tally) : (a.add b).add c = (a.add c).add b := by
  simp only [Tally.add, Nat.add_right_comm]

namespace Summary

theorem Within.refl (s : Summary) : s.Within s := ⟨.refl _, .refl _, .refl _, .refl _⟩

theorem Within.add {a b c d : Summary} (hab : a.Within b) (hcd : c.Within d) :
    (a.add c).Within (b.add d) where
  lines := hab.lines.add hcd.lines
  statements := hab.statements.add hcd.statements
  functions := hab.functions.add hcd.functions
  branches := hab.branches.add hcd.branches

theorem add_right_comm (a b c : Summary) : (a.add b).add c = (a.add c).add b := by
  simp only [add, Tally.add_right_comm]

end Summary

/-- Padding a map with values of no hits covers no more of it. -/
theorem FileRecord.within_tally {κ ν : Type} [Ord κ] [TransOrd κ] [LawfulEqOrd κ]
    {m m' : ExtTreeMap κ ν} {hits : ν → Nat}
    (h : Pads (fun v v' => hits v' = hits v) (hits · = 0) m m') :
    (tally (m.values.map hits)).Within (tally (m'.values.map hits)) := by
  obtain ⟨pairs, new, hvalues, hperm, hpairs, hnew⟩ := h.exists_pairs
  have hcounts : pairs.map (fun p => hits p.2) = pairs.map (fun p => hits p.1) :=
    List.map_congr_left hpairs
  have hnone : (new.map hits).countP (0 < ·) = 0 := by
    rw [List.countP_eq_zero]
    intro count hcount
    obtain ⟨v, hv, rfl⟩ := List.mem_map.1 hcount
    simp [hnew v hv]
  have hall : (m'.values.map hits).Perm (m.values.map hits ++ new.map hits) := by
    rw [hvalues, List.map_map]
    refine (hperm.map hits).trans (.of_eq ?_)
    rw [List.map_append, List.map_map]
    exact congrArg (· ++ new.map hits) hcounts
  constructor
  · simp [tally, hall.length_eq]
  · simp only [tally, hall.countP_eq, List.countP_append, hnone, Nat.add_zero]

/-! ## Records -/

/-- A record of which nothing was executed: it has lines without hits, and nothing else. -/
structure FileRecord.Unexecuted (f : FileRecord) : Prop where
  /-- No line was executed. -/
  statements : EachValue (·.hits = 0) f.statements
  /-- There are no functions. -/
  functions : f.functions = ∅
  /-- There are no branches. -/
  branches : f.branches = ∅

/-- The second record has the functions and branches of the first, and its lines with the same
hits.  Its other lines were not executed. -/
structure FileRecord.PaddedTo (f f' : FileRecord) : Prop where
  /-- The lines. -/
  statements : Pads (fun s s' => s'.hits = s.hits) (·.hits = 0) f.statements f'.statements
  /-- The functions, with their names and locations. -/
  functions : f'.functions = f.functions
  /-- The branches. -/
  branches : f'.branches = f.branches

namespace FileRecord

theorem PaddedTo.refl (f : FileRecord) : f.PaddedTo f where
  statements := Pads.refl (fun s => (rfl : s.hits = s.hits)) f.statements
  functions := rfl
  branches := rfl

/-- The record of a file that has none is padded to what was not executed. -/
theorem Unexecuted.paddedTo {f : FileRecord} (h : f.Unexecuted) (path : String) :
    (empty path).PaddedTo f where
  statements := h.statements.pads
  functions := h.functions
  branches := h.branches

/-! ### Seeds -/

theorem unexecuted_empty (path : String) : (empty path).Unexecuted := ⟨.empty, rfl, rfl⟩

theorem Unexecuted.addSeed {f : FileRecord} (h : f.Unexecuted) (s : Seed) :
    (f.addSeed s).Unexecuted := by
  refine addSeed_induction ?_ ?_ h
  · intro f l _ hf
    refine { hf with statements := hf.statements.alter ?_ }
    cases hold : f.statements[l.line]? with
    | none => rfl
    | some old => simp [hf.statements l.line old hold, addHits]
  · intro f hf
    exact ⟨hf.statements, hf.functions, hf.branches⟩

/-! ### Additions to both records -/

variable {f f' : FileRecord}

theorem PaddedTo.addStatement (h : f.PaddedTo f') (line : Nat) (location : Location)
    (hits : Nat) :
    (f.addStatement line location hits).PaddedTo (f'.addStatement line location hits) where
  statements := by
    refine h.statements.alter ?_ ?_ rfl
    · intro s s' heq
      exact congrArg (addHits · hits) heq
    · intro s' hzero
      exact congrArg (addHits · hits) hzero
  functions := h.functions
  branches := h.branches

theorem PaddedTo.addFunction (h : f.PaddedTo f') (name : Option String) (location : Location)
    (hits : Nat) :
    (f.addFunction name location hits).PaddedTo (f'.addFunction name location hits) where
  statements := h.statements
  functions := by simp only [FileRecord.addFunction, h.functions]
  branches := h.branches

theorem PaddedTo.addBranch (h : f.PaddedTo f') (location : Location) (hits : Nat) :
    (f.addBranch location hits).PaddedTo (f'.addBranch location hits) where
  statements := h.statements
  functions := h.functions
  branches := by simp only [FileRecord.addBranch, h.branches]

theorem PaddedTo.addShare (h : f.PaddedTo f') (s : Share) :
    (f.addShare s).PaddedTo (f'.addShare s) := by
  have hlines : (f.addLines s).PaddedTo (f'.addLines s) :=
    List.foldl_rel h fun e _ _ _ h => h.addStatement _ _ _
  have hcalls : ((f.addLines s).addCalls s).PaddedTo ((f'.addLines s).addCalls s) :=
    List.foldl_rel hlines fun c _ _ _ h => h.addFunction _ _ _
  have hblocks : (((f.addLines s).addCalls s).addBlocks s).PaddedTo
      (((f'.addLines s).addCalls s).addBlocks s) :=
    List.foldl_rel hcalls fun b _ _ _ h => h.addBranch _ _
  rw [addShare_eq, addShare_eq]
  exact ⟨hblocks.statements, hblocks.functions, hblocks.branches⟩

/-! ### Summaries -/

theorem PaddedTo.within_summary (h : f.PaddedTo f') : f.summary.Within f'.summary where
  lines := within_tally h.statements
  statements := within_tally h.statements
  functions := by
    simp only [summary, h.functions]
    exact .refl _
  branches := by
    simp only [summary, h.branches]
    exact .refl _

/-- What was not executed covers nothing. -/
theorem Unexecuted.within_summary (h : f.Unexecuted) : ({} : Summary).Within f.summary :=
  (h.paddedTo f.path).within_summary

end FileRecord

/-! ## Maps -/

/-- The second map has the files of the first, each padded, and of its other files nothing was
executed. -/
def CoverageMap.PaddedTo (m m' : CoverageMap) : Prop :=
  Pads FileRecord.PaddedTo FileRecord.Unexecuted m.files m'.files

namespace CoverageMap

variable {m m' : CoverageMap}

/-- What seeds enter into an empty map was not executed. -/
theorem paddedTo_addSeeds (seeds : List Seed) :
    PaddedTo {} (seeds.foldl addSeed {}) := by
  have hunexecuted : EachValue FileRecord.Unexecuted (seeds.foldl addSeed {}).files := by
    refine List.foldlRecOn
      (motive := fun m : CoverageMap => EachValue FileRecord.Unexecuted m.files) _ _ .empty ?_
    intro m hm s _
    refine EachValue.alter hm (FileRecord.Unexecuted.addSeed ?_ s)
    cases hold : m.files[s.path]? with
    | none => exact FileRecord.unexecuted_empty s.path
    | some f => exact hm s.path f hold
  exact hunexecuted.pads

theorem PaddedTo.update (h : m.PaddedTo m') (path : String) {change : FileRecord → FileRecord}
    (hchange : ∀ {f f'}, FileRecord.PaddedTo f f' → (change f).PaddedTo (change f')) :
    (m.update path change).PaddedTo (m'.update path change) := by
  refine Pads.alter h ?_ ?_ (hchange (.refl _))
  · intro f f' hpadded
    exact hchange hpadded
  · intro f' hunexecuted
    exact hchange (hunexecuted.paddedTo path)

theorem PaddedTo.addFindings (h : m.PaddedTo m') (findings : List Finding) :
    (m.addFindings findings).PaddedTo (m'.addFindings findings) :=
  List.foldl_rel h fun e _ _ _ h => h.update e.1 fun hf => hf.addShare e.2

/-- Padding a map covers no more of it. -/
theorem PaddedTo.within_summary (h : m.PaddedTo m') : m.summary.Within m'.summary := by
  obtain ⟨pairs, new, hfiles, hperm, hpairs, hnew⟩ := Pads.exists_pairs h
  have hswap : ∀ x ∈ m'.files.values.map FileRecord.summary,
      ∀ y ∈ m'.files.values.map FileRecord.summary, ∀ s : Summary,
        (s.add x).add y = (s.add y).add x :=
    fun x _ y _ s => s.add_right_comm x y
  rw [summary, summary, (hperm.map FileRecord.summary).foldl_eq' hswap, hfiles, List.map_append,
    List.foldl_append, List.map_map, List.map_map, List.foldl_map, List.foldl_map, List.foldl_map]
  -- the pairs count alike, and what is new covers nothing
  refine List.foldlRecOn (motive := Summary.Within _) new _ ?_ ?_
  · refine List.foldl_rel (.refl _) fun p hp s s' hs => hs.add ?_
    exact (hpairs p hp).within_summary
  · intro s hs f hf
    exact hs.add (hnew f hf).within_summary

end CoverageMap

/-! ## Runs -/

namespace Merger

variable {m m' : Merger} {d : Disk} {past : List Entry}

/-- A run from a map that is padded to another comes to a map that is padded to what the run
from the other comes to. -/
theorem paddedTo_addAll (hmap : m.map.PaddedTo m'.map) (h : m.resolver.Knows d past)
    (h' : m'.resolver.Knows d past)
    (hdirectory : m'.resolver.buildDirectory = m.resolver.buildDirectory)
    (hfilter : m'.filter = m.filter) (entries : List Entry) :
    (m.addAll d entries).map.PaddedTo (m'.addAll d entries).map := by
  rw [map_addAll h, map_addAll h']
  refine List.foldl_rel hmap fun e _ map map' hpadded => ?_
  rw [findingsOf, findingsOf, hdirectory, hfilter]
  exact hpadded.addFindings _

/-- Seeding before a run pads its map. -/
theorem paddedTo_addAll_seed (d : Disk) (buildDirectory : String) (filter : SourceFilter)
    (projectRoot sourceRoot : String) (entries : List Entry) :
    ((new buildDirectory filter).addAll d entries).map.PaddedTo
      (((new buildDirectory filter).seed d projectRoot sourceRoot).2.addAll d entries).map := by
  have hknows := Resolver.knows_nil d buildDirectory
  have hmap : (new buildDirectory filter).map.PaddedTo
      ((new buildDirectory filter).seed d projectRoot sourceRoot).2.map :=
    CoverageMap.paddedTo_addSeeds _
  exact paddedTo_addAll hmap hknows hknows rfl rfl entries

end Merger

namespace Run

/-- A run by the same options, but for whether it seeds. -/
def seeding (r : Run) (seedAll : Bool) : Run := { r with options := { r.options with seedAll } }

/-- Seeding never changes what is covered.  If the filter is valid, a run that seeds has what
the run that does not has, with the same hits, functions and branches, and else only files and
lines that were not executed.  So no covered part is more or less. -/
theorem merge_seeding (r : Run) (h : Host) (entries : List Entry) :
    (∃ e, ∀ seedAll, ((r.seeding seedAll).merge h entries).2 = .error e) ∨
      ∃ seeded bare, ((r.seeding true).merge h entries).2 = .ok seeded ∧
        ((r.seeding false).merge h entries).2 = .ok bare ∧
        bare.map.PaddedTo seeded.map ∧ bare.map.summary.Within seeded.map.summary := by
  cases hfilter : r.options.sourceFilter with
  | error e =>
      refine .inl ⟨e, fun seedAll => ?_⟩
      have hfilter' : (r.seeding seedAll).options.sourceFilter = .error e := hfilter
      rw [merge, hfilter']
  | ok filter =>
      have hfilter' : ∀ seedAll, (r.seeding seedAll).options.sourceFilter = .ok filter :=
        fun _ => hfilter
      have hpadded := Merger.paddedTo_addAll_seed h.disk r.options.buildDirectory filter
        r.options.projectRoot r.options.sourceRoot entries
      refine .inr ⟨_, _, ?_, ?_, hpadded, hpadded.within_summary⟩
      · rw [merge, hfilter']
        rfl
      · rw [merge, hfilter']
        rfl

end Run

end BundleCoverage
