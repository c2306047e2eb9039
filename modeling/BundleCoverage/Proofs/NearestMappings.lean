import BundleCoverage.Proofs.Projections
import BundleCoverage.Proofs.StableSorting
import Mathlib.Data.List.Nodup

/-!
# Nearest mappings

A mapping table holds each segment that comes from a source once, and a position finds the nearest
of those that do not come after it (`SourceMap.IsNearest`): the one at the greatest position, and of
several at this position the last in the stream.  The columns of a line may have any order and
positions may be repeated, as the stable sort puts the mappings in the order of `ComesBefore`
(`pairwise_sortedMappings`).
-/

namespace BundleCoverage.SourceMap

/-! ## Places in the stream -/

/-- The mapping that stands at a place, a line and a number on this line, if the place has a
segment that comes from a source. -/
def mappingAt? (lines : Lines) (place : Nat × Nat) : Option Mapping := do
  let segments ← lines[place.1]?
  let segment ← segments[place.2]?
  let source ← segment.source
  pure ⟨place.1, segment.generatedColumn, source⟩

/-- Whether a place comes before another in the stream. -/
def Earlier (a b : Nat × Nat) : Prop := a.1 < b.1 ∨ a.1 = b.1 ∧ a.2 < b.2

/-- Whether a mapping with its place comes before another: it has an earlier position, or the same
position and an earlier place. -/
def ComesBefore (a b : Mapping × Nat × Nat) : Prop :=
  Earlier a.1.position b.1.position ∨ a.1.position = b.1.position ∧ Earlier a.2 b.2

/-- Whether the mapping at a place is the nearest to a position: none that stands elsewhere and
does not come after the position comes later. -/
structure IsNearest (lines : Lines) (position place : Nat × Nat) (m : Mapping) : Prop where
  /-- The mapping is at the place. -/
  here : mappingAt? lines place = some m
  /-- It does not come after the position. -/
  before : notAfter m.position position
  /-- The others that do not come after the position come before it. -/
  last : ∀ other m', mappingAt? lines other = some m' → notAfter m'.position position →
    other ≠ place → ComesBefore (m', other) (m, place)

theorem comesBefore_asymm (a b : Mapping × Nat × Nat) (h : ComesBefore a b) :
    ¬ ComesBefore b a := by
  unfold ComesBefore Earlier at *
  rw [Prod.ext_iff] at *
  omega

/-! ## Mappings with their places -/

/-- The mappings of a line with their places. -/
def lineEntries (line : Nat) (segments : List Segment) : List (Mapping × Nat × Nat) :=
  segments.zipIdx.filterMap fun s =>
    s.1.source.map fun source => (⟨line, s.1.generatedColumn, source⟩, line, s.2)

/-- The mappings of some lines with their places, in the order of the stream. -/
def placedMappings (lines : Lines) : List (Mapping × Nat × Nat) :=
  lines.zipIdx.flatMap fun l => lineEntries l.2 l.1

/-- The same in the order of their positions. -/
def sortedMappings (lines : Lines) : List (Mapping × Nat × Nat) :=
  (placedMappings lines).mergeSort fun a b => a.1.le b.1

variable {lines : Lines}

theorem mem_lineEntries {line : Nat} {segments : List Segment} {p : Mapping × Nat × Nat} :
    p ∈ lineEntries line segments ↔
      ∃ segment source, segments[p.2.2]? = some segment ∧ segment.source = some source ∧
        p.1 = ⟨line, segment.generatedColumn, source⟩ ∧ p.2.1 = line := by
  rw [lineEntries, List.mem_filterMap]
  constructor
  · rintro ⟨⟨segment, number⟩, hmem, hp⟩
    obtain ⟨source, hsource, rfl⟩ := Option.map_eq_some_iff.1 hp
    exact ⟨segment, source, List.mem_zipIdx_iff_getElem?.1 hmem, hsource, rfl, rfl⟩
  · obtain ⟨m, line', number⟩ := p
    rintro ⟨segment, source, hsegment, hsource, rfl, hline⟩
    obtain rfl : line' = line := hline
    exact ⟨(segment, number), List.mem_zipIdx_iff_getElem?.2 hsegment, by rw [hsource]; rfl⟩

theorem mem_placedMappings {p : Mapping × Nat × Nat} :
    p ∈ placedMappings lines ↔ mappingAt? lines p.2 = some p.1 := by
  obtain ⟨m, line, number⟩ := p
  simp only [placedMappings, List.mem_flatMap, mem_lineEntries, mappingAt?, Option.bind_eq_bind,
    Option.bind_eq_some_iff, Option.pure_def, Option.some.injEq]
  constructor
  · rintro ⟨⟨segments, line⟩, hline, segment, source, hsegment, hsource, rfl, rfl⟩
    exact ⟨segments, List.mem_zipIdx_iff_getElem?.1 hline, segment, hsegment, source, hsource, rfl⟩
  · rintro ⟨segments, hline, segment, hsegment, source, hsource, rfl⟩
    exact ⟨(segments, line), List.mem_zipIdx_iff_getElem?.2 hline, segment, source, hsegment,
      hsource, rfl, rfl⟩

theorem pairwise_lineEntries (line : Nat) (segments : List Segment) :
    (lineEntries line segments).Pairwise fun a b => Earlier a.2 b.2 := by
  refine List.pairwise_filterMap.2 ((pairwise_zipIdx segments).imp fun {a b} hlt p hp q hq => ?_)
  obtain ⟨_, -, rfl⟩ := Option.map_eq_some_iff.1 hp
  obtain ⟨_, -, rfl⟩ := Option.map_eq_some_iff.1 hq
  exact .inr ⟨rfl, hlt⟩

theorem pairwise_placedMappings (lines : Lines) :
    (placedMappings lines).Pairwise fun a b => Earlier a.2 b.2 := by
  refine List.pairwise_flatMap.2 ⟨fun l _ => pairwise_lineEntries l.2 l.1, ?_⟩
  refine (pairwise_zipIdx lines).imp fun {a b} hlt p hp q hq => ?_
  obtain ⟨_, _, -, -, -, hline⟩ := mem_lineEntries.1 hp
  obtain ⟨_, _, -, -, -, hline'⟩ := mem_lineEntries.1 hq
  exact .inl (by omega)

theorem nodup_placedMappings (lines : Lines) : (placedMappings lines).Nodup := by
  refine (pairwise_placedMappings lines).imp fun {a b} hearlier heq => ?_
  subst heq
  unfold Earlier at hearlier
  omega

theorem map_lineEntries (line : Nat) (segments : List Segment) :
    (lineEntries line segments).map (·.1) = lineMappings line segments := by
  have hsplit := List.filterMap_map (f := Prod.fst) (l := segments.zipIdx)
    (g := fun s : Segment => s.source.map fun source => Mapping.mk line s.generatedColumn source)
  rw [List.zipIdx_map_fst] at hsplit
  rw [lineEntries, List.map_filterMap, lineMappings, hsplit]
  congr 1
  funext s
  rw [Option.map_map]
  rfl

theorem map_flatMap_lineEntries (lines : Lines) (line : Nat) :
    ((lines.zipIdx line).flatMap fun l => lineEntries l.2 l.1).map (·.1)
      = streamFrom line lines := by
  induction lines generalizing line with
  | nil => rfl
  | cons segments lines ih =>
      rw [List.zipIdx_cons, List.flatMap_cons, List.map_append, map_lineEntries, ih, streamFrom]

/-- The table holds the mappings in the order in which they are sorted with their places. -/
theorem map_sortedMappings (lines : Lines) :
    (sortedMappings lines).map (·.1) = (MappingTable.ofLines lines).mappings := by
  rw [sortedMappings, List.map_mergeSort (s := Mapping.le) fun _ _ _ _ => rfl, placedMappings,
    map_flatMap_lineEntries]
  rfl

theorem mem_sortedMappings {p : Mapping × Nat × Nat} :
    p ∈ sortedMappings lines ↔ mappingAt? lines p.2 = some p.1 := by
  rw [sortedMappings, List.mem_mergeSort, mem_placedMappings]

theorem nodup_sortedMappings (lines : Lines) : (sortedMappings lines).Nodup :=
  (List.mergeSort_perm _ _).nodup_iff.2 (nodup_placedMappings lines)

/-- Sorting takes each mapping before those that it comes before. -/
theorem pairwise_sortedMappings (lines : Lines) : (sortedMappings lines).Pairwise ComesBefore := by
  have hstable := pairwise_mergeSort_of_nodup (fun a b : Mapping × Nat × Nat => a.1.le b.1)
    (fun _ _ _ => Mapping.le_trans _ _ _) (fun _ _ => Mapping.le_total _ _)
    (nodup_placedMappings lines) (pairwise_placedMappings lines)
  refine hstable.imp fun {a b} ⟨hfirst, hplace⟩ => ?_
  simp only [Mapping.le, notAfter_iff] at hfirst hplace
  unfold ComesBefore
  rw [Prod.ext_iff]
  unfold Earlier at *
  omega

/-- Two places have the same mapping in the table only where they are one. -/
theorem nodup_map_sortedMappings (lines : Lines) :
    ((sortedMappings lines).map (·.2)).Nodup := by
  refine List.Nodup.map_on (fun a ha b hb heq => ?_) (nodup_sortedMappings lines)
  have hmapping := mem_sortedMappings.1 ha
  rw [heq, mem_sortedMappings.1 hb] at hmapping
  exact Prod.ext (Option.some.inj hmapping).symm heq

/-! ## The nearest mapping -/

variable {line column : Nat} {m : Mapping}

theorem find_eq_getLast? (lines : Lines) (line column : Nat) :
    (MappingTable.ofLines lines).find line column
      = (((sortedMappings lines).filter
          fun p => notAfter p.1.position (line, column)).getLast?).map (·.1) := by
  rw [MappingTable.find_eq, ← map_sortedMappings, List.filter_map, List.getLast?_map]
  rfl

/-- A position finds no mapping just if all mappings come after it. -/
theorem find_eq_none_iff :
    (MappingTable.ofLines lines).find line column = none ↔
      ∀ place m, mappingAt? lines place = some m → ¬ notAfter m.position (line, column) := by
  rw [find_eq_getLast?, Option.map_eq_none_iff, List.getLast?_eq_none_iff,
    List.filter_eq_nil_iff]
  constructor
  · intro hnone place m hm
    exact hnone (m, place) (mem_sortedMappings.2 hm)
  · intro hnone p hp
    exact hnone p.2 p.1 (mem_sortedMappings.1 hp)

/-- A position finds the mapping that is nearest to it. -/
theorem find_eq_some_iff :
    (MappingTable.ofLines lines).find line column = some m ↔
      ∃ place, IsNearest lines (line, column) place m := by
  rw [find_eq_getLast?, Option.map_eq_some_iff]
  have hlast (p : Mapping × Nat × Nat) :=
    getLast?_filter_eq_some_iff (a := p) (pairwise_sortedMappings lines) comesBefore_asymm
      (p := fun p => notAfter p.1.position (line, column))
  constructor
  · rintro ⟨⟨m, place⟩, hp, rfl⟩
    obtain ⟨hmem, hbefore, hothers⟩ := (hlast _).1 hp
    refine ⟨place, mem_sortedMappings.1 hmem, hbefore, fun other m' hm' hbefore' hne => ?_⟩
    exact hothers (m', other) (mem_sortedMappings.2 hm') hbefore'
      fun heq => hne (congrArg Prod.snd heq)
  · rintro ⟨place, hhere, hbefore, hothers⟩
    refine ⟨(m, place), (hlast _).2 ⟨mem_sortedMappings.2 hhere, hbefore, fun p hp hp' hne => ?_⟩,
      rfl⟩
    have hp := mem_sortedMappings.1 hp
    refine hothers p.2 p.1 hp hp' fun hplace => hne ?_
    rw [hplace, hhere] at hp
    exact Prod.ext (Option.some.inj hp).symm hplace

/-- A mapping table holds each segment that comes from a source once, in order, and the nearest
mapping before a position is the last of those that do not come after it, if there are any: the one
at the greatest position, and of several at this position the last in the stream. -/
theorem nearest_mapping (lines : Lines) :
    (∀ line column,
      ((MappingTable.ofLines lines).find line column = none ↔
        ∀ place m, mappingAt? lines place = some m → ¬ notAfter m.position (line, column)) ∧
      ∀ m, (MappingTable.ofLines lines).find line column = some m ↔
        ∃ place, IsNearest lines (line, column) place m) ∧
    ∃ places : List (Nat × Nat),
      places.Nodup ∧
      (∀ place, place ∈ places ↔ (mappingAt? lines place).isSome) ∧
      places.map (mappingAt? lines) = (MappingTable.ofLines lines).mappings.map some := by
  refine ⟨fun line column => ⟨find_eq_none_iff, fun m => find_eq_some_iff⟩,
    (sortedMappings lines).map (·.2), nodup_map_sortedMappings lines, fun place => ?_, ?_⟩
  · rw [List.mem_map, Option.isSome_iff_exists]
    constructor
    · rintro ⟨p, hp, rfl⟩
      exact ⟨p.1, mem_sortedMappings.1 hp⟩
    · rintro ⟨m, hm⟩
      exact ⟨(m, place), mem_sortedMappings.2 hm, rfl⟩
  · rw [← map_sortedMappings, List.map_map, List.map_map]
    exact List.map_congr_left fun p hp => mem_sortedMappings.1 hp

end BundleCoverage.SourceMap
