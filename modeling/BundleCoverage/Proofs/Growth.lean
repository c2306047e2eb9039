import BundleCoverage.Proofs.Runs

/-!
# What one more entry adds

An entry adds to the map of a run what it records in an empty map, `CoverageMap.Growth`.
What it says is fixed by its script in the run, which the first entry with ranges of its URL
decides: `Entry.withFirstSource` is the entry as it would have to be to find this script
alone.

A function that is new to its file is numbered by the functions of this file if it has no
name, so its name may differ (`FunctionRecord.Alike`).
-/

namespace BundleCoverage

open Std

/-! ## Functions of a record -/

/-- Two records of a function that may differ in the number that stands for its name. -/
structure FunctionRecord.Alike (g g' : FunctionRecord) : Prop where
  /-- The same location. -/
  location : g.location = g'.location
  /-- The same hits. -/
  hits : g.hits = g'.hits
  /-- The same name, unless there is none. -/
  name : g.name = g'.name ∨ ∃ n n', g.name = anonymousName n ∧ g'.name = anonymousName n'

namespace FileRecord

theorem kept_addFunction {f : FileRecord} {q : Position} {g : FunctionRecord}
    (h : f.functions[q]? = some g) (name : Option String) (location : Location) (hits : Nat) :
    ∃ total, (f.addFunction name location hits).functions[q]? = some { g with hits := total } := by
  rw [functions_addFunction, h]
  by_cases hstart : location.start = q
  · exact ⟨addHits g.hits hits, if_pos hstart⟩
  · exact ⟨g.hits, if_neg hstart⟩

theorem kept_addCalls {f : FileRecord} {q : Position} {g : FunctionRecord}
    (h : f.functions[q]? = some g) (s : Share) :
    ∃ total, (f.addCalls s).functions[q]? = some { g with hits := total } := by
  rw [addCalls]
  induction s.calls generalizing f g with
  | nil => exact ⟨g.hits, h⟩
  | cons call calls ih =>
      obtain ⟨total, hfirst⟩ := kept_addFunction h (some call.1) call.2.1 call.2.2
      exact ih (g := { g with hits := total }) hfirst

theorem kept_addShare {f : FileRecord} {q : Position} {g : FunctionRecord}
    (h : f.functions[q]? = some g) (s : Share) :
    ∃ total, (f.addShare s).functions[q]? = some { g with hits := total } := by
  have hlines : (f.addLines s).functions[q]? = some g := by rwa [functions_addLines]
  obtain ⟨total, hcalls⟩ := kept_addCalls hlines s
  exact ⟨total, by simpa [addShare_eq] using hcalls⟩

theorem alike_addFunction {f f' : FileRecord} {q : Position}
    (h : Option.Rel FunctionRecord.Alike f.functions[q]? f'.functions[q]?)
    (name : Option String) (location : Location) (hits : Nat) :
    Option.Rel FunctionRecord.Alike (f.addFunction name location hits).functions[q]?
      (f'.addFunction name location hits).functions[q]? := by
  rw [functions_addFunction, functions_addFunction]
  by_cases hstart : location.start = q
  · rw [if_pos hstart, if_pos hstart]
    refine .some ?_
    generalize f.functions[q]? = old, f'.functions[q]? = old' at h ⊢
    cases h with
    | some halike =>
        obtain ⟨hlocation, hhits, hname⟩ := halike
        exact ⟨hlocation, congrArg (addHits · hits) hhits, hname⟩
    | none =>
        -- the number of an unnamed function is that of its record
        refine ⟨rfl, rfl, ?_⟩
        cases name.filter (· ≠ "") with
        | none => exact .inr ⟨_, _, rfl, rfl⟩
        | some given => exact .inl rfl
  · rwa [if_neg hstart, if_neg hstart]

theorem alike_addCalls {f f' : FileRecord} {q : Position}
    (h : Option.Rel FunctionRecord.Alike f.functions[q]? f'.functions[q]?) (s : Share) :
    Option.Rel FunctionRecord.Alike (f.addCalls s).functions[q]? (f'.addCalls s).functions[q]? := by
  rw [addCalls, addCalls]
  induction s.calls generalizing f f' with
  | nil => exact h
  | cons call calls ih => exact ih (alike_addFunction h (some call.1) call.2.1 call.2.2)

theorem alike_addShare {f f' : FileRecord} {q : Position}
    (h : Option.Rel FunctionRecord.Alike f.functions[q]? f'.functions[q]?) (s : Share) :
    Option.Rel FunctionRecord.Alike (f.addShare s).functions[q]? (f'.addShare s).functions[q]? := by
  have hlines : Option.Rel FunctionRecord.Alike (f.addLines s).functions[q]?
      (f'.addLines s).functions[q]? := by
    rwa [functions_addLines, functions_addLines]
  simpa [addShare_eq] using alike_addCalls hlines s

end FileRecord

/-! ## Growth of a map -/

/-- A map has grown by another one: what it had is still there with the new hits added, and
what it lacked is there as in the other map. -/
structure CoverageMap.Growth (before fresh after : CoverageMap) : Prop where
  /-- New files are taken over as they are. -/
  newFile : ∀ path, before.get? path = none → after.get? path = fresh.get? path
  /-- Old files stay. -/
  oldFile : ∀ path, before.contains path → after.contains path
  /-- Statements are added up, or taken over. -/
  statement : ∀ path line, after.statement? path line
    = Option.merge StatementRecord.add (before.statement? path line) (fresh.statement? path line)
  /-- The hits of functions are added up, or taken over. -/
  functionHits : ∀ path start, after.functionHits? path start
    = Option.merge addHits (before.functionHits? path start) (fresh.functionHits? path start)
  /-- New functions are taken over. -/
  newFunction : ∀ path start, before.function? path start = none →
    Option.Rel FunctionRecord.Alike (after.function? path start) (fresh.function? path start)
  /-- Old functions keep their names and locations. -/
  oldFunction : ∀ path start g, before.function? path start = some g →
    ∃ total, after.function? path start = some { g with hits := total }
  /-- The hits of branches are added up, or taken over. -/
  branchHits : ∀ path location, after.branchHits? path location
    = Option.merge addHits (before.branchHits? path location) (fresh.branchHits? path location)

namespace CoverageMap

theorem growth_addFindings (m : CoverageMap) (findings : List Finding) :
    Growth m (({} : CoverageMap).addFindings findings) (m.addFindings findings) where
  newFile path h := by
    rw [addFindings, addFindings, get?_addShares, get?_addShares, h, get?_empty]
  oldFile path h := by
    rw [contains_addFindings, h, Bool.true_or]
  statement path line := by
    rw [statement?_addFindings, statement?_addFindings, statement?_empty, Option.merge_none_left]
  functionHits path start := by
    rw [functionHits?_addFindings, functionHits?_addFindings, functionHits?_empty,
      Option.merge_none_left]
  newFunction path start h := by
    rw [function?, function?, addFindings, addFindings, get?_addShares, get?_addShares]
    rw [function?] at h
    cases (Share.ofFindings findings)[path]? with
    | none =>
        rw [Option.elim_none, Option.elim_none, h, get?_empty]
        exact .none
    | some s =>
        refine FileRecord.alike_addShare ?_ s
        cases hfile : m.get? path with
        | none => exact .none
        | some f =>
            rw [hfile, Option.bind_some] at h
            rw [Option.getD_some, h]
            exact .none
  oldFunction path start g h := by
    rw [function?, addFindings, get?_addShares]
    obtain ⟨f, hfile, hfunction⟩ := Option.bind_eq_some_iff.1 h
    cases (Share.ofFindings findings)[path]? with
    | none => exact ⟨g.hits, h⟩
    | some s =>
        rw [hfile]
        exact FileRecord.kept_addShare hfunction s
  branchHits path location := by
    rw [branchHits?_addFindings, branchHits?_addFindings, branchHits?_empty,
      Option.merge_none_left]

end CoverageMap

/-! ## One more entry -/

/-- An entry with the source of the entry whose script it has after some others. -/
def Entry.withFirstSource (past : List Entry) (e : Entry) : Entry :=
  { e with source := (e.firstOf past).source }

/-- After some others, an entry says what it says alone with the source of the first one. -/
theorem Entry.findingsIn_withFirstSource {d : Disk} {buildDirectory : String}
    {filter : SourceFilter} (past : List Entry) (e : Entry) :
    e.findingsIn d buildDirectory filter (past ++ [e])
      = (e.withFirstSource past).findingsIn d buildDirectory filter [e.withFirstSource past] := by
  have hcode : (e.firstOf past).code? d buildDirectory
      = (e.withFirstSource past).code? d buildDirectory :=
    code?_congr (url_firstOf past e) rfl
  have hscript : (e.firstOf past).resolve? d buildDirectory
      = (e.withFirstSource past).resolve? d buildDirectory :=
    resolve?_congr (url_firstOf past e) hcode
  rw [findingsIn, findingsIn, scriptIn?, scriptIn?, firstOf_append_self, firstOf_singleton,
    hscript]
  rfl

/-- A filter that leaves out nothing. -/
def SourceFilter.everything : SourceFilter := ⟨[[.components]], []⟩

/-- An entry whose text was not captured, for a script that is on no disk. -/
def Entry.textless : Entry :=
  { url := "src/a.js", functions := [{ functionName := "f", ranges := [⟨0, 4, 1⟩] }] }

/-- The same entry with the text of the script. -/
def Entry.texted : Entry := { textless with source := some "f();" }

namespace Merger

variable {d : Disk} {m : Merger} {past : List Entry}

theorem map_add (h : m.resolver.Knows d past) (e : Entry) :
    (m.add d e).2.map = m.map.addFindings (m.findingsOf d (past ++ [e]) e) := by
  obtain ⟨r, -, -, hadd⟩ := add_eq h e
  rw [hadd]

/-- A map grows by what an entry records alone if another entry says the same next. -/
theorem growth_add (h : m.resolver.Knows d past) {e e' : Entry}
    (hsame : e.findingsIn d m.resolver.buildDirectory m.filter (past ++ [e])
      = e'.findingsIn d m.resolver.buildDirectory m.filter [e']) :
    CoverageMap.Growth m.map
      ((new m.resolver.buildDirectory m.filter).add d e').2.map (m.add d e).2.map := by
  rw [map_add h, findingsOf, hsame, map_add (Resolver.knows_nil d _)]
  exact CoverageMap.growth_addFindings m.map _

/-- The map of a run grows by what one more entry records alone with the source of the first
entry of its URL.  This is what the entry itself records alone if they have the same text. -/
theorem growth_of_one_more (d : Disk) (buildDirectory : String) (filter : SourceFilter)
    (roots : List (String × String)) (past : List Entry) (e : Entry) :
    CoverageMap.Growth
        (((new buildDirectory filter).seedAll d roots).addAll d past).map
        ((new buildDirectory filter).add d (e.withFirstSource past)).2.map
        ((((new buildDirectory filter).seedAll d roots).addAll d past).add d e).2.map ∧
      ((e.firstOf past).code? d buildDirectory = e.code? d buildDirectory →
        CoverageMap.Growth
          (((new buildDirectory filter).seedAll d roots).addAll d past).map
          ((new buildDirectory filter).add d e).2.map
          ((((new buildDirectory filter).seedAll d roots).addAll d past).add d e).2.map) := by
  obtain ⟨hknows, hdirectory, hfilter⟩ :=
    knows_addAll (knows_seedAll d buildDirectory filter roots) past
  generalize ((new buildDirectory filter).seedAll d roots).addAll d past = m at *
  rw [resolver_seedAll] at hdirectory
  rw [filter_seedAll] at hfilter
  have hnew : new buildDirectory filter = new m.resolver.buildDirectory m.filter := by
    rw [hdirectory, hfilter]
    rfl
  rw [hnew]
  constructor
  · exact growth_add hknows (Entry.findingsIn_withFirstSource past e)
  · intro hcode
    refine growth_add hknows (Entry.findingsIn_alone ?_)
    rw [List.nil_append, Entry.firstOf_append_self, hdirectory]
    exact hcode

/-- A second call of the same text. -/
theorem growth_of_second_call :
    (Entry.texted.firstOf [.texted]).code? .empty ".next" = Entry.texted.code? .empty ".next" ∧
      CoverageMap.Growth
        (((new ".next" .everything).seedAll .empty []).addAll .empty [.texted]).map
        ((new ".next" .everything).add .empty .texted).2.map
        ((((new ".next" .everything).seedAll .empty []).addAll .empty [.texted]).add
          .empty .texted).2.map := by
  have hcode : (Entry.texted.firstOf [.texted]).code? .empty ".next"
      = Entry.texted.code? .empty ".next" := by
    rw [Entry.firstOf_singleton]
  exact ⟨hcode, (growth_of_one_more .empty ".next" .everything [] [.texted] .texted).2 hcode⟩

/-- The text of an entry does not count if an earlier entry of its URL had none: a line that
the entry records alone is missing. -/
theorem text_after_textless :
    ¬∀ (d : Disk) (buildDirectory : String) (filter : SourceFilter) (past : List Entry)
      (e : Entry), e.source.any (· ≠ "") → ∀ path line,
        (((new buildDirectory filter).addAll d past).add d e).2.map.lineHits? path line
          = Option.merge addHits
              (((new buildDirectory filter).addAll d past).map.lineHits? path line)
              (((new buildDirectory filter).add d e).2.map.lineHits? path line) := by
  intro h
  have hmissing : (((new ".next" .everything).addAll .empty [.textless]).add
      .empty .texted).2.map.lineHits? "src/a.js" 1 = none := by
    decide +kernel
  have hbefore : ((new ".next" .everything).addAll .empty [.textless]).map.lineHits?
      "src/a.js" 1 = none := by
    decide +kernel
  have halone : ((new ".next" .everything).add .empty .texted).2.map.lineHits? "src/a.js" 1
      = some 1 := by
    decide +kernel
  have hgrowth := h .empty ".next" .everything [.textless] .texted (by decide) "src/a.js" 1
  rw [hmissing, hbefore, halone] at hgrowth
  cases hgrowth

end Merger

end BundleCoverage
