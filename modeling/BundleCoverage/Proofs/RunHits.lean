import BundleCoverage.Proofs.Findings
import BundleCoverage.Proofs.Runs

/-!
# The hits of a run

Each line, function and branch of the map of a run has the total of what the entries say
about it, and it is there if some entry says anything.  What an entry says is what its
script in the run says (`Entry.lineCount?`, `Entry.callCounts`, `Entry.blockCounts`), so an
entry without ranges or without a script says nothing.
-/

namespace BundleCoverage

/-! ## What an entry says in a run -/

namespace Entry

section

variable (d : Disk) (buildDirectory : String) (filter : SourceFilter) (run : List Entry)
  (path : String)

/-- What an entry of a run says about a line of a source. -/
def lineCount? (line : Nat) (e : Entry) : Option Nat :=
  (e.scriptIn? d buildDirectory run).bind (·.lineCount? filter (.ofRanges e.ranges) path line)

/-- The counts of an entry of a run for the function of a source that starts at a position. -/
def callCounts (start : Position) (e : Entry) : List Nat :=
  (e.scriptIn? d buildDirectory run).elim [] fun s =>
    e.functions.filterMap (s.callCount? filter path start)

/-- The counts of an entry of a run for a branch of a source. -/
def blockCounts (location : Location) (e : Entry) : List Nat :=
  (e.scriptIn? d buildDirectory run).elim [] fun s =>
    (e.functions.flatMap (·.blocks)).filterMap (s.blockCount? filter path location)

theorem lineCount?_findingsIn (line : Nat) (e : Entry) :
    Finding.lineCount? path line (e.findingsIn d buildDirectory filter run)
      = e.lineCount? d buildDirectory filter run path line := by
  rw [findingsIn, Entry.lineCount?]
  cases e.scriptIn? d buildDirectory run with
  | none => rfl
  | some s => exact s.lineCount?_findings filter e path line

theorem callsAt_findingsIn (start : Position) (e : Entry) :
    Finding.callsAt path start (e.findingsIn d buildDirectory filter run)
      = e.callCounts d buildDirectory filter run path start := by
  rw [findingsIn, callCounts]
  cases e.scriptIn? d buildDirectory run with
  | none => rfl
  | some s => exact s.callsAt_findings filter e path start

theorem blocksAt_findingsIn (location : Location) (e : Entry) :
    Finding.blocksAt path location (e.findingsIn d buildDirectory filter run)
      = e.blockCounts d buildDirectory filter run path location := by
  rw [findingsIn, blockCounts]
  cases e.scriptIn? d buildDirectory run with
  | none => rfl
  | some s => exact s.blocksAt_findings filter e path location

end

/-! ## Who says something -/

section

variable {d : Disk} {buildDirectory : String} {filter : SourceFilter} {run : List Entry}
  {path : String} {e : Entry}

/-- An entry counts for a function if one of its functions, with a range and no wrapper,
starts there. -/
theorem exists_callCounts {start : Position} :
    (∃ count, count ∈ e.callCounts d buildDirectory filter run path start) ↔
      ∃ s, e.scriptIn? d buildDirectory run = some s ∧ ∃ f ∈ e.functions, ∃ first,
        f.ranges.head? = some first ∧ ¬f.IsWrapper first s.length ∧
          s.origin? first.startOffset.toNat = some (path, start) ∧ filter.includes path := by
  rw [callCounts]
  cases e.scriptIn? d buildDirectory run with
  | none => simp
  | some s =>
      rw [Option.elim_some]
      constructor
      · rintro ⟨count, hcount⟩
        obtain ⟨f, hf, hcall⟩ := List.mem_filterMap.1 hcount
        obtain ⟨first, hfirst, hcall⟩ := Option.bind_eq_some_iff.1 hcall
        obtain ⟨h, -⟩ := Option.ite_none_right_eq_some.1 hcall
        exact ⟨s, rfl, f, hf, first, hfirst, h⟩
      · rintro ⟨s', hs, f, hf, first, hfirst, h⟩
        cases hs
        refine ⟨first.count.toNat, List.mem_filterMap.2 ⟨f, hf, ?_⟩⟩
        rw [ResolvedScript.callCount?, hfirst]
        exact if_pos h

/-- An entry counts for a branch if one of its blocks has its location. -/
theorem exists_blockCounts {location : Location} :
    (∃ count, count ∈ e.blockCounts d buildDirectory filter run path location) ↔
      ∃ s, e.scriptIn? d buildDirectory run = some s ∧ ∃ f ∈ e.functions, f.isBlockCoverage ∧
        ∃ r ∈ f.ranges.drop 1, s.extent? r = some (path, location) ∧ filter.includes path := by
  rw [blockCounts]
  cases e.scriptIn? d buildDirectory run with
  | none => simp
  | some s =>
      rw [Option.elim_some]
      constructor
      · rintro ⟨count, hcount⟩
        obtain ⟨r, hr, hblock⟩ := List.mem_filterMap.1 hcount
        obtain ⟨f, hf, hr⟩ := List.mem_flatMap.1 hr
        obtain ⟨h, -⟩ := Option.ite_none_right_eq_some.1 hblock
        rw [FunctionCoverage.blocks, List.mem_ite_nil_right] at hr
        exact ⟨s, rfl, f, hf, hr.1, r, hr.2, h⟩
      · rintro ⟨s', hs, f, hf, hblocks, r, hr, h⟩
        cases hs
        have hmem : r ∈ f.blocks := by rwa [FunctionCoverage.blocks, if_pos hblocks]
        exact ⟨r.count.toNat,
          List.mem_filterMap.2 ⟨r, List.mem_flatMap.2 ⟨f, hf, hmem⟩, if_pos h⟩⟩

end

end Entry

/-! ## Runs from the start -/

namespace Merger

variable (d : Disk) (buildDirectory : String) (filter : SourceFilter) (entries : List Entry)
  (path : String)

theorem lineHits?_run (line : Nat) :
    ((new buildDirectory filter).addAll d entries).map.lineHits? path line
      = totalHits?
          (entries.filterMap (Entry.lineCount? d buildDirectory filter entries path line)) := by
  rw [lineHits?_addAll (Resolver.knows_nil d buildDirectory), List.filterMap_eq_flatMap_toList]
  simp only [findingsOf, Entry.lineCount?_findingsIn, List.nil_append, new,
    CoverageMap.lineHits?_empty, Option.merge_none_left]

theorem functionHits?_run (start : Position) :
    ((new buildDirectory filter).addAll d entries).map.functionHits? path start
      = totalHits?
          (entries.flatMap (Entry.callCounts d buildDirectory filter entries path start)) := by
  rw [functionHits?_addAll (Resolver.knows_nil d buildDirectory)]
  simp only [findingsOf, Entry.callsAt_findingsIn, List.nil_append, new,
    CoverageMap.functionHits?_empty, Option.merge_none_left]

theorem branchHits?_run (location : Location) :
    ((new buildDirectory filter).addAll d entries).map.branchHits? path location
      = totalHits?
          (entries.flatMap (Entry.blockCounts d buildDirectory filter entries path location)) := by
  rw [branchHits?_addAll (Resolver.knows_nil d buildDirectory)]
  simp only [findingsOf, Entry.blocksAt_findingsIn, List.nil_append, new,
    CoverageMap.branchHits?_empty, Option.merge_none_left]

/-- A line has the hits that the entries of a run give it together, and is there if an entry
gives it any. -/
theorem lines_of_run (line : Nat) :
    ((((new buildDirectory filter).addAll d entries).map.lineHits? path line).isSome ↔
        ∃ e ∈ entries, (e.lineCount? d buildDirectory filter entries path line).isSome) ∧
      ((new buildDirectory filter).addAll d entries).map.lineHits? path line
        = totalHits?
            (entries.filterMap (Entry.lineCount? d buildDirectory filter entries path line)) := by
  refine ⟨?_, lineHits?_run d buildDirectory filter entries path line⟩
  rw [lineHits?_run, isSome_totalHits?]
  constructor
  · rintro ⟨count, hcount⟩
    obtain ⟨e, he, hcount⟩ := List.mem_filterMap.1 hcount
    exact ⟨e, he, Option.isSome_iff_exists.2 ⟨count, hcount⟩⟩
  · rintro ⟨e, he, hsome⟩
    obtain ⟨count, hcount⟩ := Option.isSome_iff_exists.1 hsome
    exact ⟨count, List.mem_filterMap.2 ⟨e, he, hcount⟩⟩

end Merger

end BundleCoverage
