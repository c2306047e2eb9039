import BundleCoverage.Proofs.CanonicalPaths
import BundleCoverage.Proofs.Findings
import BundleCoverage.Proofs.ScriptLines

/-!
# The sources that findings are about

A script tells only about its own sources in scope: those of its map, or itself if it has
none (`ResolvedScript.IsSource`).  What it says is in order: lines are counted from one, and
nothing ends before it starts (`Observation.WellFormed`).  Both are said of every finding by
`ResolvedScript.wellFormed_findings`.
-/

namespace BundleCoverage

/-! ## Observations in order -/

/-- A location does not end before it starts. -/
def Location.IsForward (l : Location) : Prop :=
  l.start.line < l.stop.line ∨ l.start.line = l.stop.line ∧ l.start.column ≤ l.stop.column

/-- Lines are counted from one, and nothing ends before it starts. -/
def Observation.WellFormed : Observation → Prop
  | .presence => True
  | .line number start stop _ => 1 ≤ number ∧ start ≤ stop
  | .call _ location _ => location.IsForward
  | .block location _ => location.IsForward

/-- A span ends at its start, or at a position that comes after it. -/
theorem OffsetMapper.isForward_ofSpan {m : OffsetMapper} {r : CoverageRange} {span : OriginalSpan}
    (h : m.span? r = some span) : (Location.ofSpan span).IsForward := by
  obtain ⟨start, -, rfl⟩ := Option.map_eq_some_iff.1 h
  simp only [Location.ofSpan, Location.IsForward]
  cases hstop : (m.position? r.lastOffset).filter (·.reaches start) with
  | none => exact .inr ⟨rfl, Nat.le_refl _⟩
  | some stop =>
      have hreaches : stop.reaches start := (Option.filter_eq_some_iff.1 hstop).2
      simp only [OriginalPosition.reaches, Bool.and_eq_true, Bool.or_eq_true, beq_iff_eq,
        decide_eq_true_eq] at hreaches
      exact hreaches.2

/-- The places of two offsets of a script are in the order of the offsets. -/
theorem LineIndex.InOrder.isForward {index : LineIndex} (h : index.InOrder) {a b : Nat}
    (hab : a ≤ b) :
    Location.IsForward ⟨index.originalPosition a, index.originalPosition b⟩ := by
  simp only [Location.IsForward, LineIndex.originalPosition]
  rcases h.position_mono hab with hline | ⟨hline, hcolumn⟩
  · exact .inl (Nat.succ_lt_succ hline)
  · exact .inr ⟨congrArg Nat.succ hline, hcolumn⟩

/-! ## The sources of a script -/

namespace ResolvedScript

/-- Whether a path is that of a source of a script: its map has a source with this canonical
path, or there is no map and the path is that of the script. -/
def IsSource (s : ResolvedScript) (path : String) : Prop :=
  match s.mapper? with
  | some m => ∃ index, m.map.canonicalPath? index = some path
  | none => s.path = path

variable {s : ResolvedScript} {filter : SourceFilter} {path : String}

theorem IsSource.canonical (h : s.IsSource path) : SourcePath.normalize path = path := by
  rw [IsSource] at h
  split at h
  · obtain ⟨index, hpath⟩ := h
    obtain ⟨source, -, rfl⟩ := Option.map_eq_some_iff.1 hpath
    exact SourcePath.normalize_normalize source
  · rw [← h]
    exact SourcePath.normalize_normalize s.url

theorem of_extent? {r : CoverageRange} {location : Location}
    (h : s.extent? r = some (path, location)) : s.IsSource path ∧ location.IsForward := by
  rw [extent?] at h
  rw [IsSource]
  cases hmapper : s.mapper? with
  | some m =>
      simp only [hmapper, Option.bind_eq_bind, Option.bind_eq_some_iff] at h
      obtain ⟨span, hspan, p, hp, hparts⟩ := h
      cases hparts
      exact ⟨⟨span.start.sourceIndex, hp⟩, OffsetMapper.isForward_ofSpan hspan⟩
  | none =>
      simp only [hmapper] at h
      cases h
      exact ⟨rfl, (LineIndex.inOrder_ofText s.code).isForward (Nat.le_max_right ..)⟩

theorem of_spot? {r : CoverageRange} {spot : Spot} (h : s.spot? filter r = some spot) :
    filter.includes spot.path ∧ s.IsSource spot.path ∧ spot.location.IsForward := by
  have hextent := map_spot? s filter r
  rw [h, Option.map_some] at hextent
  obtain ⟨hextent, hscope⟩ := Option.filter_eq_some_iff.1 hextent.symm
  exact ⟨hscope, of_extent? hextent⟩

end ResolvedScript

/-! ## Findings about sources -/

/-- A finding is about a source of a script in scope, and in order. -/
structure Finding.WellFormed (s : ResolvedScript) (filter : SourceFilter) (f : Finding) : Prop where
  /-- The path is in scope. -/
  inScope : filter.includes f.path
  /-- The path is that of a source. -/
  isSource : s.IsSource f.path
  /-- What is said is in order. -/
  seen : f.seen.WellFormed

/-- What a function says, it says of the spot of one of its ranges. -/
theorem FunctionCoverage.mem_findings {f : FunctionCoverage} {codeLength : Nat}
    {spot? : CoverageRange → Option Spot} {g : Finding} (h : g ∈ f.findings codeLength spot?) :
    ∃ r spot, spot? r = some spot ∧
      (g = spot.finding (.call f.functionName spot.location r.count.toNat) ∨
        g = spot.finding (.block spot.location r.count.toNat)) := by
  rw [findings, List.mem_append, Option.mem_toList, List.mem_filterMap] at h
  rcases h with hown | ⟨r, -, hblock⟩
  · obtain ⟨r, -, hcall⟩ := Option.bind_eq_some_iff.1 hown
    obtain ⟨spot, hspot, rfl⟩ := Option.map_eq_some_iff.1 hcall
    exact ⟨r, spot, hspot, .inl rfl⟩
  · obtain ⟨spot, hspot, rfl⟩ := Option.map_eq_some_iff.1 hblock
    exact ⟨r, spot, hspot, .inr rfl⟩

namespace ResolvedScript

variable {s : ResolvedScript} {filter : SourceFilter} {counts : CountIndex} {e : Entry}
  {f : Finding}

theorem wellFormed_lineFinding? {m : OffsetMapper} (hmapper : s.mapper? = some m)
    {g : MappedSegment} (hsegment : g ∈ m.segments)
    (h : m.lineFinding? filter counts g = some f) : f.WellFormed s filter := by
  simp only [OffsetMapper.lineFinding?, Option.bind_eq_bind, Option.bind_eq_some_iff] at h
  obtain ⟨count, -, path, hpath, hfinding⟩ := h
  cases hfinding
  obtain ⟨hcanonical, hscope⟩ := Option.filter_eq_some_iff.1 hpath
  refine ⟨hscope, ?_, ?_, Nat.le_refl _⟩
  · rw [IsSource, hmapper]
    exact ⟨g.original.sourceIndex, hcanonical⟩
  · -- original lines are counted from one
    obtain ⟨mapping, -, hmapping⟩ := List.mem_filterMap.1 hsegment
    obtain ⟨offset, -, rfl⟩ := Option.map_eq_some_iff.1 hmapping
    simp only [OriginalPosition.ofMapping, addWords, maxWord]
    omega

theorem wellFormed_ownLine? (hmapper : s.mapper? = none) (hscope : filter.includes s.path)
    {l : CodeLine} (hline : l ∈ codeLines s.code)
    (h : s.ownLine? (.ofText s.code) counts l = some f) : f.WellFormed s filter := by
  simp only [ownLine?, Option.bind_eq_bind, Option.bind_eq_some_iff] at h
  obtain ⟨offset, -, count, -, hfinding⟩ := h
  cases hfinding
  refine ⟨hscope, ?_, bounds_of_mem_codeLines hline⟩
  rw [IsSource, hmapper]

theorem wellFormed_lineFindings (h : f ∈ s.lineFindings filter counts) :
    f.WellFormed s filter := by
  rw [lineFindings] at h
  cases hmapper : s.mapper? with
  | some m =>
      simp only [hmapper] at h
      obtain ⟨g, hsegment, hfinding⟩ := List.mem_filterMap.1 h
      exact wellFormed_lineFinding? hmapper hsegment hfinding
  | none =>
      simp only [hmapper, List.mem_ite_nil_right, List.mem_cons] at h
      obtain ⟨hscope, rfl | hline⟩ := h
      · refine ⟨hscope, ?_, trivial⟩
        rw [IsSource, hmapper]
      · obtain ⟨l, hl, hfinding⟩ := List.mem_filterMap.1 hline
        exact wellFormed_ownLine? hmapper hscope hl hfinding

/-- Every finding of a script is about one of its sources in scope, and in order. -/
theorem wellFormed_findings (h : f ∈ s.findings filter e) : f.WellFormed s filter := by
  rw [findings_eq, List.mem_append, List.mem_flatMap] at h
  rcases h with hline | ⟨function, -, hfunction⟩
  · exact wellFormed_lineFindings hline
  · obtain ⟨r, spot, hspot, rfl | rfl⟩ := FunctionCoverage.mem_findings hfunction
    · obtain ⟨hscope, hsource, hforward⟩ := of_spot? hspot
      exact ⟨hscope, hsource, hforward⟩
    · obtain ⟨hscope, hsource, hforward⟩ := of_spot? hspot
      exact ⟨hscope, hsource, hforward⟩

end ResolvedScript

end BundleCoverage
