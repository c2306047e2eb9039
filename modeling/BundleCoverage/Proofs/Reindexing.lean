import BundleCoverage.Proofs.FirstSeen
import BundleCoverage.Proofs.RoundTrip

/-!
# Mappings moved to another map

When several maps become one, the mappings of the first are kept and their indices are moved to
the common lists of sources and names.  A moved mapping stands at its own positions and has the
same path and the same name as before (`Mapping.Moved`).

`decode_reindex` says this for the moved text, read back as lines, and `ofLines_moved` for the
tables of such lines.
-/

namespace BundleCoverage.SourceMap

open BundleCoverage

/-! ## Moved mappings -/

/-- The name at a source position of a map, if its index is in range. -/
def SourcePosition.name? (map : SourceMap) (p : SourcePosition) : Option String :=
  p.nameIndex.bind fun n => map.names[n.toNat]?

/-- A source position that was moved from one map to another: it stands for the same place in
the same source, under the same name. -/
structure SourcePosition.Moved (source target : SourceMap) (p q : SourcePosition) : Prop where
  originalLine : q.originalLine = p.originalLine
  originalColumn : q.originalColumn = p.originalColumn
  /-- Both indices are in range and point at the same path. -/
  path : ∃ path, source.sourcePath? p.sourceIndex.toNat = some path ∧
    target.sourcePath? q.sourceIndex.toNat = some path
  /-- A name index in range points at the same name. -/
  name : ∀ name, p.name? source = some name → q.name? target = some name
  /-- A name index out of range is dropped. -/
  noName : p.name? source = none → q.nameIndex = none

/-- A segment that was moved: it stands at the same column. -/
structure Segment.Moved (source target : SourceMap) (s t : Segment) : Prop where
  generatedColumn : t.generatedColumn = s.generatedColumn
  source : Option.Rel (SourcePosition.Moved source target) s.source t.source

/-- A mapping that was moved: it stands at the same generated position. -/
structure Mapping.Moved (source target : SourceMap) (m n : Mapping) : Prop where
  generatedLine : n.generatedLine = m.generatedLine
  generatedColumn : n.generatedColumn = m.generatedColumn
  source : SourcePosition.Moved source target m.source n.source

/-! ## Places in the common lists -/

theorem idxOf_le_of_getElem? {names : List String} {i : Nat} {name : String}
    (h : names[i]? = some name) : names.idxOf name ≤ i := by
  induction names generalizing i with
  | nil => cases h
  | cons other names ih =>
      rw [List.idxOf_cons]
      cases hsame : other == name with
      | true => exact Nat.zero_le i
      | false =>
          cases i with
          | zero =>
              have : other = name := by simpa using h
              simp [this] at hsame
          | succ i =>
              have := ih (by simpa using h)
              simp only [cond_false]
              omega

/-- What stands first in the common list within the range of words has its place there. -/
theorem getElem?_idxOf_common {names others : List String} {i : UInt32} {name : String}
    (h : names[i.toNat]? = some name) :
    (names ++ others).eraseDups[(UInt32.ofNat ((names ++ others).eraseDups.idxOf name)).toNat]?
      = some name := by
  have hfirst : (names ++ others)[i.toNat]? = some name := by
    rw [List.getElem?_append_left (List.getElem?_eq_some_iff.1 h).1]
    exact h
  have hplace : (names ++ others).eraseDups.idxOf name ≤ i.toNat :=
    Nat.le_trans (idxOf_eraseDups_le _ _) (idxOf_le_of_getElem? hfirst)
  have hword : (UInt32.ofNat ((names ++ others).eraseDups.idxOf name)).toNat
      = (names ++ others).eraseDups.idxOf name := by
    have := i.toNat_lt
    rw [UInt32.toNat_ofNat', Nat.mod_eq_of_lt (by omega)]
  rw [hword]
  exact List.getElem?_idxOf (List.mem_eraseDups.2 (List.mem_of_getElem? hfirst))

/-! ## Lists that are related member by member -/

/-- A relation that keeps the order survives sorting. -/
theorem forall₂_mergeSort {α β : Type} {r : α → β → Prop} {le : α → α → Bool}
    {le' : β → β → Bool} {as : List α} {bs : List β} (h : List.Forall₂ r as bs)
    (hle : ∀ a b a' b', r a b → r a' b' → le a a' = le' b b') :
    List.Forall₂ r (as.mergeSort le) (bs.mergeSort le') := by
  have hlen := h.length_eq
  have hmem : ∀ x ∈ as.zip bs, r x.1 x.2 := fun x hx => List.forall₂_zip h hx
  -- the pairs are sorted by their first members, which sorts the second ones as well
  have hfst : ((as.zip bs).mergeSort fun x y => le x.1 y.1).map Prod.fst = as.mergeSort le := by
    rw [List.map_mergeSort (s := le) fun x _ y _ => rfl, List.map_fst_zip (by omega)]
  have hsnd : ((as.zip bs).mergeSort fun x y => le x.1 y.1).map Prod.snd = bs.mergeSort le' := by
    rw [List.map_mergeSort (s := le') fun x hx y hy => hle _ _ _ _ (hmem x hx) (hmem y hy),
      List.map_snd_zip (by omega)]
  rw [← hfst, ← hsnd, List.forall₂_map_left_iff, List.forall₂_map_right_iff, List.forall₂_same]
  intro x hx
  exact hmem x (List.mem_mergeSort.1 hx)

/-! ## Moving the mappings -/

section Reindex

variable {map target : SourceMap} {otherPaths otherNames : List String}

/-- The paths of the sources of a map. -/
def pathsOf (map : SourceMap) : List String := map.sources.map (joinSourceRoot map.sourceRoot)

/-- Whether a map has the common lists of a map and of others behind it. -/
structure Extends (map target : SourceMap) (otherPaths otherNames : List String) : Prop where
  sourceRoot : target.sourceRoot = none
  sources : target.sources = (pathsOf map ++ otherPaths).eraseDups
  names : target.names = (map.names ++ otherNames).eraseDups

theorem sourcePath?_eq (map : SourceMap) (i : Nat) : map.sourcePath? i = (pathsOf map)[i]? := by
  rw [sourcePath?, pathsOf, List.getElem?_map]

theorem Extends.sourcePath?_eq (h : Extends map target otherPaths otherNames) (i : Nat) :
    target.sourcePath? i = target.sources[i]? := by
  rw [sourcePath?, h.sourceRoot]
  exact Option.map_id'

theorem reindexPosition_moved (h : Extends map target otherPaths otherNames)
    {p q : SourcePosition} (hq : reindexPosition map target.sources target.names p = .ok q) :
    SourcePosition.Moved map target p q := by
  unfold reindexPosition at hq
  split at hq
  · cases hq
  · next path hpath =>
    cases hq
    refine ⟨rfl, rfl, ⟨path, hpath, ?_⟩, ?_, ?_⟩
    · rw [h.sourcePath?_eq, h.sources]
      exact getElem?_idxOf_common (sourcePath?_eq map _ ▸ hpath)
    · intro name hname
      obtain ⟨n, hn, hname⟩ := Option.bind_eq_some_iff.1 hname
      simp only [SourcePosition.name?, hn, Option.bind_some, hname, Option.map_some]
      rw [h.names]
      exact getElem?_idxOf_common hname
    · intro hname
      cases hn : p.nameIndex with
      | none => rfl
      | some n =>
          simp only [SourcePosition.name?, hn, Option.bind_some] at hname
          simp only [Option.bind_some, hname, Option.map_none]

theorem reindexSegment_moved (h : Extends map target otherPaths otherNames) {s t : Segment}
    (ht : reindexSegment map target.sources target.names s = .ok t) :
    Segment.Moved map target s t := by
  unfold reindexSegment at ht
  split at ht
  · next hnone =>
    cases ht
    exact ⟨rfl, hnone ▸ .none⟩
  · next p hp =>
    obtain ⟨q, hq, rfl⟩ := map_eq_ok_iff.1 ht
    exact ⟨rfl, hp ▸ .some (reindexPosition_moved h hq)⟩

theorem Segment.Moved.exists_source {s t : Segment} (h : Segment.Moved map target s t)
    {q : SourcePosition} (hq : q ∈ t.source) :
    ∃ p ∈ s.source, SourcePosition.Moved map target p q := by
  obtain ⟨-, hsource⟩ := h
  rw [hq] at hsource
  cases hp : s.source with
  | none =>
      rw [hp] at hsource
      cases hsource
  | some p =>
      rw [hp] at hsource
      cases hsource with
      | some hmoved => exact ⟨p, rfl, hmoved⟩

theorem Segment.Moved.hasLine {s t : Segment} (h : Segment.Moved map target s t)
    (hs : s.HasLine) : t.HasLine := by
  intro q hq
  obtain ⟨p, hp, hmoved⟩ := h.exists_source hq
  exact hmoved.originalLine ▸ hs p hp

/-- Moved mappings are read back as the segments of the map, each of them moved. -/
theorem decode_reindex (h : Extends map target otherPaths otherNames) {text : String}
    (htext : reindex map target.sources target.names = .ok text) :
    ∃ before after, decode map.mappings = .ok before ∧ decode text = .ok after ∧
      List.Forall₂ (List.Forall₂ (Segment.Moved map target)) before after := by
  obtain ⟨before, hbefore, htext⟩ := bind_eq_ok_iff.1 htext
  obtain ⟨after, hafter, htext⟩ := bind_eq_ok_iff.1 htext
  cases htext
  rw [mapError_eq_ok_iff] at hbefore
  have hmoved : List.Forall₂ (List.Forall₂ (Segment.Moved map target)) before after := by
    refine (mapM_eq_ok_iff.1 hafter).imp fun segments segments' hsegments => ?_
    exact (mapM_eq_ok_iff.1 hsegments).imp fun s t ht => reindexSegment_moved h ht
  have hlines : ∀ segments ∈ after, ∀ t ∈ segments, t.HasLine := by
    refine forall_of_forall₂ hmoved (fun segments segments' hsegments => ?_)
      (hasLine_of_decode hbefore)
    exact forall_of_forall₂ hsegments fun s t ht => ht.hasLine
  have hne : after ≠ [] := by
    rintro rfl
    exact ne_nil_of_decode hbefore (List.forall₂_nil_right_iff.1 hmoved)
  exact ⟨before, after, hbefore, decode_encode hne hlines, hmoved⟩

/-! ## Moved tables -/

theorem streamFrom_moved {before after : Lines}
    (h : List.Forall₂ (List.Forall₂ (Segment.Moved map target)) before after) (line : Nat) :
    List.Forall₂ (Mapping.Moved map target) (streamFrom line before) (streamFrom line after) := by
  induction h generalizing line with
  | nil => exact .nil
  | cons hsegments hrest ih =>
      refine List.rel_append (List.rel_filterMap ?_ hsegments) (ih (line + 1))
      rintro ⟨column, p⟩ ⟨column', q⟩ ⟨hcolumn, hsource⟩
      cases hsource with
      | none => exact .none
      | some hmoved => exact .some ⟨rfl, hcolumn, hmoved⟩

/-- The table of moved mappings has the mappings of the table, each of them moved. -/
theorem ofLines_moved {before after : Lines}
    (h : List.Forall₂ (List.Forall₂ (Segment.Moved map target)) before after) :
    List.Forall₂ (Mapping.Moved map target) (MappingTable.ofLines before).mappings
      (MappingTable.ofLines after).mappings := by
  refine forall₂_mergeSort (streamFrom_moved h 0) fun m m' n n' hm hn => ?_
  simp only [Mapping.le, Mapping.position, hm.generatedLine, hm.generatedColumn, hn.generatedLine,
    hn.generatedColumn]

end Reindex

end BundleCoverage.SourceMap
