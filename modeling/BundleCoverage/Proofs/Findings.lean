import BundleCoverage.Proofs.CodeLines
import BundleCoverage.Proofs.Contributions
import BundleCoverage.Proofs.Maps
import Mathlib.Data.List.Basic

/-!
# The findings of a script

The findings of an entry say what its script says: `lineCount?_findings` for a line,
`callsAt_findings` for a function and `blocksAt_findings` for a block.  A script with a source
map and one without follow one rule, `ResolvedScript.findings_eq`, in which they differ by
the spots of their ranges and the findings about lines.
-/

namespace BundleCoverage

/-! ## Findings one by one -/

namespace Finding

variable {path : String} {line : Nat} {start : Position} {location : Location}

/-- The count that a finding gives to a line of a source. -/
def countOn? (path : String) (line : Nat) (f : Finding) : Option Nat :=
  if f.path = path then f.seen.countOn? line else none

/-- The count of the call of a function of a source, if a finding is one. -/
def callOf? (path : String) (start : Position) (f : Finding) : Option Nat :=
  if f.path = path then f.seen.callAt? start else none

/-- The count of the run of a block of a source, if a finding is one. -/
def blockOf? (path : String) (location : Location) (f : Finding) : Option Nat :=
  if f.path = path then f.seen.blockAt? location else none

theorem filterMap_about {α : Type} (say? : Observation → Option α) (findings : List Finding) :
    (about path findings).filterMap say?
      = findings.filterMap fun f => if f.path = path then say? f.seen else none := by
  rw [about, List.filterMap_map, List.filterMap_filter]
  simp only [decide_eq_true_eq, Function.comp_apply]

theorem lineCount?_eq (findings : List Finding) :
    lineCount? path line findings = (findings.filterMap (countOn? path line)).max? := by
  rw [lineCount?, filterMap_about]
  rfl

theorem callsAt_eq (findings : List Finding) :
    callsAt path start findings = findings.filterMap (callOf? path start) :=
  filterMap_about ..

theorem blocksAt_eq (findings : List Finding) :
    blocksAt path location findings = findings.filterMap (blockOf? path location) :=
  filterMap_about ..

@[simp] theorem countOn?_call (s : Spot) (name : String) (l : Location) (count : Nat) :
    countOn? path line (s.finding (.call name l count)) = none := ite_self none

@[simp] theorem countOn?_block (s : Spot) (l : Location) (count : Nat) :
    countOn? path line (s.finding (.block l count)) = none := ite_self none

@[simp] theorem callOf?_block (s : Spot) (l : Location) (count : Nat) :
    callOf? path start (s.finding (.block l count)) = none := ite_self none

@[simp] theorem blockOf?_call (s : Spot) (name : String) (l : Location) (count : Nat) :
    blockOf? path location (s.finding (.call name l count)) = none := ite_self none

end Finding

/-! ## The findings of a function -/

theorem max?_toList (o : Option Nat) : o.toList.max? = o := by
  cases o with
  | none => rfl
  | some n => rfl

theorem filterMap_toList {α β : Type} (o : Option α) (say? : α → Option β) :
    o.toList.filterMap say? = (o.bind say?).toList := by
  cases o with
  | none => rfl
  | some a =>
      rw [Option.toList_some, List.filterMap_cons, Option.bind_some]
      cases say? a with
      | none => rfl
      | some b => rfl

/-- What a function says, read by its own range and its blocks. -/
theorem FunctionCoverage.filterMap_findings {α : Type} (f : FunctionCoverage) (codeLength : Nat)
    (spot? : CoverageRange → Option Spot) (say? : Finding → Option α) :
    (f.findings codeLength spot?).filterMap say?
      = ((f.ownRange? codeLength).bind fun r => (spot? r).bind fun s =>
            say? (s.finding (.call f.functionName s.location r.count.toNat))).toList
        ++ f.blocks.filterMap fun r => (spot? r).bind fun s =>
            say? (s.finding (.block s.location r.count.toNat)) := by
  rw [FunctionCoverage.findings, List.filterMap_append, filterMap_toList, Option.bind_assoc,
    List.filterMap_filterMap]
  simp only [Option.bind_map]
  rfl

/-- The own range of a function is its first one, unless the function is a wrapper. -/
theorem FunctionCoverage.ownRange?_eq (f : FunctionCoverage) (length : Nat) :
    f.ownRange? length = f.ranges.head?.filter fun first => ¬f.IsWrapper first length := by
  rw [ownRange?]
  congr 1
  funext first
  have hkeep : (f.functionName == "" && first.startOffset == 0
      && decide (length ≤ first.endOffset.toNat)) = decide (f.IsWrapper first length) := by
    rw [Bool.eq_iff_iff, decide_eq_true_iff]
    simp [IsWrapper, and_assoc]
  rw [hkeep, decide_not]

/-! ## The findings of a script -/

namespace ResolvedScript

/-- The spot of a range in the source it comes from, if this is in scope. -/
def spot? (s : ResolvedScript) (filter : SourceFilter) (r : CoverageRange) : Option Spot :=
  match s.mapper? with
  | some m => m.spot? filter r
  | none => if filter.includes s.path then some (s.ownSpot (.ofText s.code) r) else none

/-- What an entry says about the lines of sources. -/
def lineFindings (s : ResolvedScript) (filter : SourceFilter) (counts : CountIndex) :
    List Finding :=
  match s.mapper? with
  | some m => m.segments.filterMap (m.lineFinding? filter counts)
  | none =>
    if filter.includes s.path then
      ⟨s.path, some s.code, .presence⟩
        :: (codeLines s.code).filterMap (s.ownLine? (.ofText s.code) counts)
    else []

variable (s : ResolvedScript) (filter : SourceFilter) (e : Entry) (path : String)

/-- With a source map or without one, an entry says something about lines, and about its
functions one by one. -/
theorem findings_eq :
    s.findings filter e
      = s.lineFindings filter (.ofRanges e.ranges)
        ++ e.functions.flatMap (·.findings s.length (s.spot? filter)) := by
  rw [findings, lineFindings]
  cases h : s.mapper? with
  | some m =>
      have hlines : m.lines = .ofText s.code := by
        obtain ⟨read, -, rfl⟩ := Option.map_eq_some_iff.1 h
        rfl
      have hspot : s.spot? filter = m.spot? filter := by
        funext r
        simp only [spot?, h]
      rw [hspot, length, ← hlines]
      rfl
  | none =>
      by_cases hscope : filter.includes s.path = true
      · have hspot : s.spot? filter = fun r => some (s.ownSpot (.ofText s.code) r) := by
          funext r
          simp only [spot?, h, if_pos hscope]
        simp only [if_pos hscope, hspot]
        rfl
      · have hspot : s.spot? filter = fun _ => none := by
          funext r
          simp only [spot?, h, if_neg hscope]
        -- no range has a spot, so no function says anything
        simp only [if_neg hscope, hspot, List.nil_append]
        refine (List.flatMap_eq_nil_iff.2 ?_).symm
        intro f _
        simp [FunctionCoverage.findings]

/-- A spot is the extent of its range, in scope. -/
theorem map_spot? (r : CoverageRange) :
    (s.spot? filter r).map (fun spot => (spot.path, spot.location))
      = (s.extent? r).filter fun extent => filter.includes extent.1 := by
  rw [spot?, extent?]
  cases s.mapper? with
  | some m =>
      cases hspan : m.span? r with
      | none => simp [OffsetMapper.spot?, hspan]
      | some span =>
          cases hpath : m.map.canonicalPath? span.start.sourceIndex with
          | none => simp [OffsetMapper.spot?, OffsetMapper.pathInScope?, hspan, hpath]
          | some p =>
              have hin : m.pathInScope? filter span.start.sourceIndex
                  = if filter.includes p then some p else none := by
                rw [OffsetMapper.pathInScope?, hpath, Option.filter_some]
              by_cases hscope : filter.includes p = true
              · simp [OffsetMapper.spot?, hspan, hpath, hin, hscope, Option.filter_some]
              · simp [OffsetMapper.spot?, hspan, hpath, hin, hscope, Option.filter_some]
  | none =>
      by_cases hscope : filter.includes s.path = true
      · simp [ownSpot, hscope, Option.filter_some]
      · simp [hscope, Option.filter_some]

/-- A range starts where its first offset does. -/
theorem map_start_extent? (r : CoverageRange) :
    (s.extent? r).map (fun extent => (extent.1, extent.2.start))
      = s.origin? r.startOffset.toNat := by
  rw [extent?, origin?]
  cases s.mapper? with
  | none => rfl
  | some m =>
      simp only [OffsetMapper.span?]
      cases m.position? r.startOffset.toNat with
      | none => rfl
      | some p =>
          cases hpath : m.map.canonicalPath? p.sourceIndex with
          | none => simp [hpath]
          | some path => simp [hpath, Location.ofSpan]

/-! ## Functions and blocks of a source -/

/-- What is said of the source that a range comes from is said of a path where this is the
path of the source and it is in scope.  `key` picks a part of the location. -/
theorem bind_spot? {α : Type} [DecidableEq α] (key : Location → α) (k : α) (r : CoverageRange)
    (count : Nat) :
    ((s.spot? filter r).bind fun spot =>
        if spot.path = path then if key spot.location = k then some count else none else none)
      = if (s.extent? r).map (fun extent => (extent.1, key extent.2)) = some (path, k)
            ∧ filter.includes path then some count
        else none := by
  have hspot := map_spot? s filter r
  cases hextent : s.extent? r with
  | none =>
      rw [hextent, Option.filter_none, Option.map_eq_none_iff] at hspot
      simp [hspot]
  | some extent =>
      obtain ⟨p, location⟩ := extent
      rw [hextent, Option.filter_some] at hspot
      by_cases hscope : filter.includes p = true
      · rw [if_pos hscope, Option.map_eq_some_iff] at hspot
        obtain ⟨spot, hspot, hparts⟩ := hspot
        obtain ⟨rfl, rfl⟩ := Prod.mk.inj hparts
        by_cases hpath : spot.path = path
        · subst hpath
          simp [hspot, hscope]
        · simp [hspot, hpath]
      · rw [if_neg hscope, Option.map_eq_none_iff] at hspot
        rw [hspot, Option.bind_none, if_neg]
        rintro ⟨hkey, hin⟩
        obtain ⟨rfl, -⟩ := Prod.mk.inj (Option.some.inj hkey)
        exact hscope hin

theorem bind_ownRange? (f : FunctionCoverage) (start : Position) :
    ((f.ownRange? s.length).bind fun r => (s.spot? filter r).bind fun spot =>
        Finding.callOf? path start
          (spot.finding (.call f.functionName spot.location r.count.toNat)))
      = s.callCount? filter path start f := by
  rw [f.ownRange?_eq, callCount?]
  cases f.ranges.head? with
  | none => rfl
  | some first =>
      rw [Option.filter_some]
      by_cases hwrapper : f.IsWrapper first s.length
      · simp [hwrapper]
      · have hcall := bind_spot? s filter path Location.start start first first.count.toNat
        rw [map_start_extent?] at hcall
        rw [if_pos (by simpa using hwrapper)]
        exact hcall.trans (by simp [hwrapper])

/-! ## What a script says, from its findings -/

/-- Only lines and the presence of a source are found with the lines. -/
theorem filterMap_lineFindings {α : Type} (counts : CountIndex) (say? : Finding → Option α)
    (hpresence : ∀ p text, say? ⟨p, text, .presence⟩ = none)
    (hline : ∀ p text n start stop count, say? ⟨p, text, .line n start stop count⟩ = none) :
    (s.lineFindings filter counts).filterMap say? = [] := by
  rw [lineFindings]
  split
  · rw [List.filterMap_filterMap, List.filterMap_eq_nil_iff]
    intro g _
    rw [Option.bind_eq_none_iff]
    intro f hf
    obtain ⟨count, -, hf⟩ := Option.bind_eq_some_iff.1 hf
    obtain ⟨p, -, hf⟩ := Option.bind_eq_some_iff.1 hf
    cases hf
    exact hline ..
  · split
    · rw [List.filterMap_cons_none (hpresence ..), List.filterMap_filterMap,
        List.filterMap_eq_nil_iff]
      intro l _
      rw [Option.bind_eq_none_iff]
      intro f hf
      obtain ⟨offset, -, hf⟩ := Option.bind_eq_some_iff.1 hf
      obtain ⟨count, -, hf⟩ := Option.bind_eq_some_iff.1 hf
      cases hf
      exact hline ..
    · rfl

theorem bind_lineFinding? (m : OffsetMapper) (counts : CountIndex) (n : Nat) (g : MappedSegment) :
    (m.lineFinding? filter counts g).bind (Finding.countOn? path n)
      = m.countOn? filter counts path n g := by
  simp only [OffsetMapper.countOn?, OffsetMapper.lineFinding?, OffsetMapper.pathInScope?]
  cases counts.countAt g.offset with
  | none => simp
  | some count =>
      cases m.map.canonicalPath? g.original.sourceIndex with
      | none => simp
      | some p =>
          rw [Option.filter_some]
          by_cases hpath : p = path
          · subst hpath
            by_cases hscope : filter.includes p = true
            · simp [hscope, Finding.countOn?, Observation.countOn?, Observation.lineAt?]
            · simp [hscope]
          · by_cases hscope : filter.includes p = true
            · simp [hpath, hscope, Finding.countOn?]
            · simp [hpath, hscope]

theorem bind_ownLine? (counts : CountIndex) (n : Nat) (l : CodeLine) :
    (s.ownLine? (.ofText s.code) counts l).bind (Finding.countOn? path n)
      = if l.line = n then
          if s.path = path then
            ((LineIndex.ofText s.code).offset (l.line - 1) l.start).bind counts.countAt
          else none
        else none := by
  rw [ownLine?]
  cases (LineIndex.ofText s.code).offset (l.line - 1) l.start with
  | none => simp
  | some offset =>
      cases hcount : counts.countAt offset with
      | none => simp [hcount]
      | some count =>
          by_cases hpath : s.path = path
          · by_cases hline : l.line = n
            · simp [hcount, hpath, hline, Finding.countOn?, Observation.countOn?,
                Observation.lineAt?]
            · simp [hcount, hpath, hline, Finding.countOn?, Observation.countOn?,
                Observation.lineAt?]
          · simp [hcount, hpath, Finding.countOn?]

theorem lineCount?_findings (n : Nat) :
    Finding.lineCount? path n (s.findings filter e)
      = s.lineCount? filter (.ofRanges e.ranges) path n := by
  have hfunctions : (e.functions.flatMap (·.findings s.length (s.spot? filter))).filterMap
      (Finding.countOn? path n) = [] := by
    rw [List.filterMap_flatMap, List.flatMap_eq_nil_iff]
    intro f _
    simp [f.filterMap_findings]
  rw [Finding.lineCount?_eq, findings_eq, List.filterMap_append, hfunctions, List.append_nil,
    lineFindings, lineCount?]
  cases s.mapper? with
  | some m =>
      simp only [List.filterMap_filterMap, bind_lineFinding?]
  | none =>
      have hpresence : Finding.countOn? path n ⟨s.path, some s.code, .presence⟩ = none :=
        ite_self none
      by_cases hscope : filter.includes s.path = true
      · simp only [if_pos hscope]
        rw [List.filterMap_cons_none hpresence, List.filterMap_filterMap]
        simp only [bind_ownLine?, filterMap_codeLines, max?_toList]
        by_cases hpath : s.path = path
        · subst hpath
          simp only [hscope, and_self]
          rfl
        · simp [hpath]
      · simp only [if_neg hscope, List.filterMap_nil]
        rw [if_neg]
        · rfl
        · rintro ⟨rfl, hin⟩
          exact hscope hin

theorem callsAt_findings (start : Position) :
    Finding.callsAt path start (s.findings filter e)
      = e.functions.filterMap (s.callCount? filter path start) := by
  rw [Finding.callsAt_eq, findings_eq, List.filterMap_append, List.filterMap_flatMap,
    filterMap_lineFindings s filter _ _ (fun _ _ => ite_self none) fun _ _ _ _ _ _ => ite_self none,
    List.nil_append, List.filterMap_eq_flatMap_toList]
  refine List.flatMap_congr ?_
  intro f _
  rw [f.filterMap_findings, bind_ownRange?]
  simp

theorem blocksAt_findings (location : Location) :
    Finding.blocksAt path location (s.findings filter e)
      = (e.functions.flatMap (·.blocks)).filterMap (s.blockCount? filter path location) := by
  rw [Finding.blocksAt_eq, findings_eq, List.filterMap_append, List.filterMap_flatMap,
    filterMap_lineFindings s filter _ _ (fun _ _ => ite_self none) fun _ _ _ _ _ _ => ite_self none,
    List.nil_append, List.filterMap_flatMap]
  refine List.flatMap_congr ?_
  intro f _
  have hblock (r : CoverageRange) : ((s.spot? filter r).bind fun spot =>
      Finding.blockOf? path location (spot.finding (.block spot.location r.count.toNat)))
        = s.blockCount? filter path location r := by
    refine (bind_spot? s filter path id location r r.count.toNat).trans ?_
    simp [blockCount?]
  rw [f.filterMap_findings]
  simp [hblock]

end ResolvedScript

end BundleCoverage
