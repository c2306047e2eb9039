import BundleCoverage.Proofs.Outcomes
import BundleCoverage.SourceMap.Mappings

/-!
# Running totals in step

Reading adds the numbers of a segment to the totals and writing takes the differences from
them.  One segment is read from a text if the text holds exactly the numbers that the segment
is written with (`Totals.read_eq_ok_iff`), and reading and writing leave the same totals
behind.  So they stay in step over the segments of a line and over the lines
(`decodeGroups_eq_ok_iff`): what remains of a mappings text is its numbers.

No total ever leaves the range of a field, so no number is too large to be written
(`Totals.AreWords.natAbs_le_of_mem_lineDeltas`).
-/

namespace BundleCoverage.SourceMap

open BundleCoverage

/-! ## One segment -/

/-- Whether the original line of a segment can be counted from one. -/
def Segment.HasLine (s : Segment) : Prop := ∀ p, s.source = some p → p.originalLine.toNat ≠ maxWord

theorem inRange_eq_ok_iff {field : Field} {total : Int} {w : UInt32} :
    inRange field total = .ok w ↔ total = w.toNat := by
  have hw := w.toNat_lt
  unfold inRange
  split
  · next h =>
    rw [Except.ok.injEq, ← UInt32.toNat_inj]
    simp only [UInt32.toNat_ofNat', maxWord] at *
    omega
  · next h =>
    simp only [maxWord, reduceCtorEq, false_iff] at *
    omega

theorem lineInRange_eq_ok_iff {total : Int} {w : UInt32} :
    lineInRange total = .ok w ↔ total = w.toNat ∧ w.toNat ≠ maxWord := by
  have hw := w.toNat_lt
  unfold lineInRange
  split
  · next h =>
    rw [Except.ok.injEq, ← UInt32.toNat_inj]
    simp only [UInt32.toNat_ofNat', maxWord] at *
    omega
  · next h =>
    simp only [maxWord, reduceCtorEq, false_iff] at *
    omega

/-- How many numbers a segment is written with. -/
def Segment.size (s : Segment) : Nat :=
  match s.source with
  | none => 1
  | some p => if p.nameIndex.isSome then 5 else 4

namespace Totals

variable {t t' : Totals}

theorem position_eq_ok_iff {nameIndex : Option UInt32} {p : SourcePosition} :
    t.position nameIndex = .ok p ↔
      (t.sourceIndex = p.sourceIndex.toNat ∧ t.originalLine = p.originalLine.toNat ∧
        t.originalColumn = p.originalColumn.toNat) ∧
      p.nameIndex = nameIndex ∧ p.originalLine.toNat ≠ maxWord := by
  simp only [position, bind_eq_ok_iff, lineInRange_eq_ok_iff, inRange_eq_ok_iff, pure, Except.pure,
    Except.ok.injEq]
  constructor
  · rintro ⟨line, ⟨hline, hmax⟩, source, hsource, column, hcolumn, rfl⟩
    exact ⟨⟨hsource, hline, hcolumn⟩, rfl, hmax⟩
  · rintro ⟨⟨hsource, hline, hcolumn⟩, rfl, hmax⟩
    exact ⟨p.originalLine, ⟨hline, hmax⟩, p.sourceIndex, hsource, p.originalColumn, hcolumn, rfl⟩

theorem segment_one_eq_ok_iff {s : Segment} :
    t.segment 1 = .ok s ↔ s.source = none ∧ t.generatedColumn = s.generatedColumn.toNat := by
  obtain ⟨column, source⟩ := s
  simp only [segment, bind_eq_ok_iff, inRange_eq_ok_iff, pure, Except.pure, Except.ok.injEq,
    Segment.mk.injEq]
  constructor
  · rintro ⟨w, hw, rfl, rfl⟩
    exact ⟨rfl, hw⟩
  · rintro ⟨rfl, hw⟩
    exact ⟨column, hw, rfl, rfl⟩

theorem segment_four_eq_ok_iff {s : Segment} :
    t.segment 4 = .ok s ↔
      ∃ p, s.source = some p ∧ t.position none = .ok p ∧
        t.generatedColumn = s.generatedColumn.toNat := by
  obtain ⟨column, source⟩ := s
  simp only [segment, bind_eq_ok_iff, inRange_eq_ok_iff, pure, Except.pure, Except.ok.injEq,
    Segment.mk.injEq]
  constructor
  · rintro ⟨p, hp, w, hw, rfl, rfl⟩
    exact ⟨p, rfl, hp, hw⟩
  · rintro ⟨p, rfl, hp, hw⟩
    exact ⟨p, hp, column, hw, rfl, rfl⟩

theorem segment_five_eq_ok_iff {s : Segment} :
    t.segment 5 = .ok s ↔
      ∃ p name, s.source = some p ∧ t.nameIndex = UInt32.toNat name ∧
        t.position (some name) = .ok p ∧ t.generatedColumn = s.generatedColumn.toNat := by
  obtain ⟨column, source⟩ := s
  simp only [segment, bind_eq_ok_iff, inRange_eq_ok_iff, pure, Except.pure, Except.ok.injEq,
    Segment.mk.injEq]
  constructor
  · rintro ⟨name, hname, p, hp, w, hw, rfl, rfl⟩
    exact ⟨p, name, rfl, hname, hp, hw⟩
  · rintro ⟨p, name, rfl, hname, hp, hw⟩
    exact ⟨name, hname, p, hp, column, hw, rfl, rfl⟩

/-- The totals after some numbers are those of a segment if the segment is written with them. -/
theorem segment_of_values {values : List Int} {s : Segment}
    (h : (t.add values).segment values.length = .ok s) :
    values = t.deltas s ∧ t.add values = t.after s ∧ s.HasLine := by
  obtain ⟨column, source⟩ := s
  match values with
  | [a] =>
      obtain ⟨hsource, hcolumn⟩ := segment_one_eq_ok_iff.1 h
      cases hsource
      simp only [add] at hcolumn
      refine ⟨?_, ?_, fun p hp => by cases hp⟩
      · simp only [deltas, after, List.cons.injEq, and_true]
        omega
      · simp only [add, after, hcolumn]
  | [a, b, c, d] =>
      obtain ⟨p, hsource, hp, hcolumn⟩ := segment_four_eq_ok_iff.1 h
      obtain ⟨⟨hb, hc, hd⟩, hname, hmax⟩ := position_eq_ok_iff.1 hp
      cases hsource
      simp only [add] at hcolumn hb hc hd
      refine ⟨?_, ?_, fun p hp => by cases hp; exact hmax⟩
      · simp only [deltas, after, hname, List.cons.injEq, and_true]
        omega
      · simp only [add, after, hname, hcolumn, hb, hc, hd]
  | [a, b, c, d, e] =>
      obtain ⟨p, name, hsource, he, hp, hcolumn⟩ := segment_five_eq_ok_iff.1 h
      obtain ⟨⟨hb, hc, hd⟩, hname, hmax⟩ := position_eq_ok_iff.1 hp
      cases hsource
      simp only [add] at hcolumn hb hc hd he
      refine ⟨?_, ?_, fun p hp => by cases hp; exact hmax⟩
      · simp only [deltas, after, hname, List.cons_append, List.nil_append, List.cons.injEq,
          and_true]
        omega
      · simp only [add, after, hname, hcolumn, hb, hc, hd, he]
  | [] => cases h
  | [_, _] => cases h
  | [_, _, _] => cases h
  | _ :: _ :: _ :: _ :: _ :: _ :: _ => cases h

theorem add_deltas (t : Totals) (s : Segment) : t.add (t.deltas s) = t.after s := by
  obtain ⟨column, source⟩ := s
  cases source with
  | none =>
      simp only [deltas, add, after, mk.injEq, and_true]
      omega
  | some p =>
      cases hname : p.nameIndex with
      | none =>
          simp only [deltas, add, after, hname, mk.injEq, and_true]
          omega
      | some name =>
          simp only [deltas, add, after, hname, List.cons_append, List.nil_append, mk.injEq]
          omega

theorem length_deltas (t : Totals) (s : Segment) : (t.deltas s).length = s.size := by
  obtain ⟨column, source⟩ := s
  cases source with
  | none => rfl
  | some p =>
      cases hname : p.nameIndex with
      | none => simp [deltas, Segment.size, hname]
      | some name => simp [deltas, Segment.size, hname]

theorem segment_after (t : Totals) {s : Segment} (h : s.HasLine) :
    (t.after s).segment s.size = .ok s := by
  obtain ⟨column, source⟩ := s
  cases source with
  | none => exact segment_one_eq_ok_iff.2 ⟨rfl, rfl⟩
  | some p =>
      have hmax : p.originalLine.toNat ≠ maxWord := h p rfl
      cases hname : p.nameIndex with
      | none =>
          simp only [Segment.size, after, hname]
          refine segment_four_eq_ok_iff.2 ⟨p, rfl, ?_, rfl⟩
          exact position_eq_ok_iff.2 ⟨⟨rfl, rfl, rfl⟩, hname, hmax⟩
      | some name =>
          simp only [Segment.size, after, hname]
          refine segment_five_eq_ok_iff.2 ⟨p, name, rfl, rfl, ?_, rfl⟩
          exact position_eq_ok_iff.2 ⟨⟨rfl, rfl, rfl⟩, hname, hmax⟩

/-- A segment is read from the numbers that it is written with, and from no others. -/
theorem read_eq_ok_iff {text : List Char} {s : Segment} :
    t.read text = .ok (t', s) ↔
      Vlq.decode text = .ok (t.deltas s) ∧ t' = t.after s ∧ s.HasLine := by
  unfold read
  cases htext : Vlq.decode text with
  | error fault => simp
  | ok values =>
      simp only [map_eq_ok_iff, Prod.mk.injEq]
      constructor
      · rintro ⟨s', hs, rfl, rfl⟩
        obtain ⟨hvalues, hafter, hline⟩ := segment_of_values hs
        exact ⟨congrArg Except.ok hvalues, hafter, hline⟩
      · rintro ⟨hvalues, rfl, hline⟩
        cases hvalues
        refine ⟨s, ?_, add_deltas t s, rfl⟩
        rw [add_deltas, length_deltas]
        exact segment_after t hline

end Totals

/-! ## Segments and lines -/

/-- The numbers that each segment of a line is written with. -/
def Totals.segmentDeltas (t : Totals) : List Segment → List (List Int)
  | [] => []
  | s :: segments => t.deltas s :: (t.after s).segmentDeltas segments

/-- The numbers that each segment of each line is written with. -/
def Totals.lineDeltas (t : Totals) : Lines → List (List (List Int))
  | [] => []
  | segments :: lines =>
    t.segmentDeltas segments :: (segments.foldl Totals.after t).nextLine.lineDeltas lines

theorem Totals.deltas_ne_nil (t : Totals) (s : Segment) : t.deltas s ≠ [] := by
  refine List.ne_nil_of_length_pos ?_
  rw [length_deltas, Segment.size]
  split
  · exact Nat.one_pos
  · split
    · decide
    · decide

theorem Totals.lineDeltas_ne_nil (t : Totals) {lines : Lines} (h : lines ≠ []) :
    t.lineDeltas lines ≠ [] := by
  cases lines with
  | nil => exact absurd rfl h
  | cons segments rest => exact List.cons_ne_nil _ _

theorem Totals.ne_nil_of_mem_segmentDeltas {t : Totals} {segments : List Segment}
    {values : List Int} (h : values ∈ t.segmentDeltas segments) : values ≠ [] := by
  induction segments generalizing t with
  | nil => cases h
  | cons s segments ih =>
      cases List.mem_cons.1 h with
      | inl heq => exact heq ▸ t.deltas_ne_nil s
      | inr hrest => exact ih hrest

theorem Totals.ne_nil_of_mem_lineDeltas {t : Totals} {lines : Lines} {line : List (List Int)}
    (h : line ∈ t.lineDeltas lines) : ∀ values ∈ line, values ≠ [] := by
  induction lines generalizing t with
  | nil => cases h
  | cons segments lines ih =>
      cases List.mem_cons.1 h with
      | inl heq =>
          intro values hvalues
          exact ne_nil_of_mem_segmentDeltas (heq ▸ hvalues)
      | inr hrest => exact ih hrest

/-- Whether a text holds some numbers. -/
def Holds (text : List Char) (values : List Int) : Prop := Vlq.decode text = .ok values

theorem decodeSegments_cons_eq_ok_iff {t t' : Totals} {index : Nat} {text : List Char}
    {texts : List (List Char)} {segments : List Segment} :
    decodeSegments t index (text :: texts) = .ok (t', segments) ↔
      ∃ s rest, segments = s :: rest ∧ t.read text = .ok (t.after s, s) ∧
        decodeSegments (t.after s) (index + 1) texts = .ok (t', rest) := by
  rw [decodeSegments]
  cases hread : t.read text with
  | error fault => simp
  | ok result =>
      obtain ⟨t₁, s⟩ := result
      obtain ⟨-, hafter, -⟩ := Totals.read_eq_ok_iff.1 hread
      subst hafter
      simp only [bind_eq_ok_iff]
      constructor
      · rintro ⟨⟨t₂, rest⟩, hrest, h⟩
        cases h
        exact ⟨s, rest, rfl, rfl, hrest⟩
      · rintro ⟨s', rest, rfl, hs, hrest⟩
        obtain ⟨-, rfl⟩ := Prod.mk.inj (Except.ok.inj hs)
        exact ⟨(t', rest), hrest, rfl⟩

theorem decodeSegments_eq_ok_iff {t t' : Totals} {index : Nat} {texts : List (List Char)}
    {segments : List Segment} :
    decodeSegments t index texts = .ok (t', segments) ↔
      List.Forall₂ Holds texts (t.segmentDeltas segments) ∧
        t' = segments.foldl Totals.after t ∧ ∀ s ∈ segments, s.HasLine := by
  induction texts generalizing t index segments with
  | nil =>
      rw [decodeSegments, List.forall₂_nil_left_iff]
      cases segments with
      | nil => simp [Totals.segmentDeltas, eq_comm]
      | cons s rest => simp [Totals.segmentDeltas]
  | cons text texts ih =>
      rw [decodeSegments_cons_eq_ok_iff]
      constructor
      · rintro ⟨s, rest, rfl, hread, hrest⟩
        obtain ⟨htext, -, hline⟩ := Totals.read_eq_ok_iff.1 hread
        obtain ⟨htexts, ht', hlines⟩ := ih.1 hrest
        exact ⟨.cons htext htexts, ht', List.forall_mem_cons.2 ⟨hline, hlines⟩⟩
      · rintro ⟨htexts, ht', hlines⟩
        cases segments with
        | nil => cases htexts
        | cons s rest =>
            cases htexts with
            | cons htext htexts =>
                obtain ⟨hline, hlines⟩ := List.forall_mem_cons.1 hlines
                exact ⟨s, rest, rfl, Totals.read_eq_ok_iff.2 ⟨htext, rfl, hline⟩,
                  ih.2 ⟨htexts, ht', hlines⟩⟩

theorem decodeGroups_cons_eq_ok_iff {t : Totals} {index : Nat} {group : List Char}
    {groups : List (List Char)} {lines : Lines} :
    decodeGroups t index (group :: groups) = .ok lines ↔
      ∃ segments rest, lines = segments :: rest ∧
        decodeSegments t index (segmentTexts group)
          = .ok (segments.foldl Totals.after t, segments) ∧
        decodeGroups (segments.foldl Totals.after t).nextLine
          (index + (segmentTexts group).length) groups = .ok rest := by
  simp only [decodeGroups, bind_eq_ok_iff]
  constructor
  · rintro ⟨⟨t', segments⟩, hsegments, rest, hrest, h⟩
    obtain ⟨-, ht', -⟩ := decodeSegments_eq_ok_iff.1 hsegments
    subst ht'
    cases h
    exact ⟨segments, rest, rfl, hsegments, hrest⟩
  · rintro ⟨segments, rest, rfl, hsegments, hrest⟩
    exact ⟨(_, segments), hsegments, rest, hrest, rfl⟩

/-- Lines are read from groups of segments that hold the numbers they are written with. -/
theorem decodeGroups_eq_ok_iff {t : Totals} {index : Nat} {groups : List (List Char)}
    {lines : Lines} :
    decodeGroups t index groups = .ok lines ↔
      List.Forall₂ (fun group values => List.Forall₂ Holds (segmentTexts group) values) groups
        (t.lineDeltas lines) ∧ ∀ segments ∈ lines, ∀ s ∈ segments, s.HasLine := by
  induction groups generalizing t index lines with
  | nil =>
      rw [decodeGroups, List.forall₂_nil_left_iff]
      cases lines with
      | nil => simp [Totals.lineDeltas]
      | cons segments rest => simp [Totals.lineDeltas]
  | cons group groups ih =>
      rw [decodeGroups_cons_eq_ok_iff]
      constructor
      · rintro ⟨segments, rest, rfl, hsegments, hrest⟩
        obtain ⟨htexts, -, hline⟩ := decodeSegments_eq_ok_iff.1 hsegments
        obtain ⟨hgroups, hlines⟩ := ih.1 hrest
        exact ⟨.cons htexts hgroups, List.forall_mem_cons.2 ⟨hline, hlines⟩⟩
      · rintro ⟨hgroups, hlines⟩
        cases lines with
        | nil => cases hgroups
        | cons segments rest =>
            cases hgroups with
            | cons htexts hgroups =>
                obtain ⟨hline, hlines⟩ := List.forall_mem_cons.1 hlines
                exact ⟨segments, rest, rfl, decodeSegments_eq_ok_iff.2 ⟨htexts, rfl, hline⟩,
                  ih.2 ⟨hgroups, hlines⟩⟩

theorem encodeSegments_eq (t : Totals) (segments : List Segment) :
    encodeSegments t segments
      = ((t.segmentDeltas segments).map (·.flatMap Vlq.encode), segments.foldl Totals.after t) := by
  induction segments generalizing t with
  | nil => rfl
  | cons s segments ih => simp [encodeSegments, Totals.segmentDeltas, ih]

/-- The text of a line whose segments are written with some numbers. -/
def groupText (values : List (List Int)) : List Char :=
  Text.join ',' (values.map (·.flatMap Vlq.encode))

theorem encodeGroups_eq (t : Totals) (lines : Lines) :
    encodeGroups t lines = (t.lineDeltas lines).map groupText := by
  induction lines generalizing t with
  | nil => rfl
  | cons segments lines ih =>
      simp [encodeGroups, Totals.lineDeltas, encodeSegments_eq, ih, groupText]

/-! ## The size of the numbers -/

/-- Whether all totals are 32-bit words. -/
structure Totals.AreWords (t : Totals) : Prop where
  generatedColumn : 0 ≤ t.generatedColumn ∧ t.generatedColumn ≤ maxWord
  sourceIndex : 0 ≤ t.sourceIndex ∧ t.sourceIndex ≤ maxWord
  originalLine : 0 ≤ t.originalLine ∧ t.originalLine ≤ maxWord
  originalColumn : 0 ≤ t.originalColumn ∧ t.originalColumn ≤ maxWord
  nameIndex : 0 ≤ t.nameIndex ∧ t.nameIndex ≤ maxWord

theorem toNat_isWord (w : UInt32) : 0 ≤ (w.toNat : Int) ∧ (w.toNat : Int) ≤ maxWord := by
  have := w.toNat_lt
  simp only [maxWord]
  omega

namespace Totals.AreWords

variable {t : Totals}

theorem initial : AreWords {} := by
  constructor <;> simp [maxWord]

theorem nextLine (h : t.AreWords) : t.nextLine.AreWords :=
  { h with generatedColumn := toNat_isWord 0 }

theorem after (h : t.AreWords) (s : Segment) : (t.after s).AreWords := by
  obtain ⟨column, source⟩ := s
  cases source with
  | none => exact { h with generatedColumn := toNat_isWord column }
  | some p =>
      cases hname : p.nameIndex with
      | none =>
          simp only [Totals.after, hname]
          exact ⟨toNat_isWord column, toNat_isWord p.sourceIndex, toNat_isWord p.originalLine,
            toNat_isWord p.originalColumn, h.nameIndex⟩
      | some name =>
          simp only [Totals.after, hname]
          exact ⟨toNat_isWord column, toNat_isWord p.sourceIndex, toNat_isWord p.originalLine,
            toNat_isWord p.originalColumn, toNat_isWord name⟩

theorem foldl_after (h : t.AreWords) (segments : List Segment) :
    (segments.foldl Totals.after t).AreWords := by
  induction segments generalizing t with
  | nil => exact h
  | cons s segments ih => exact ih (h.after s)

theorem natAbs_le_of_mem_deltas (h : t.AreWords) {s : Segment} {v : Int} (hv : v ∈ t.deltas s) :
    v.natAbs ≤ maxWord := by
  obtain ⟨h₁, h₂, h₃, h₄, h₅⟩ := h
  obtain ⟨h₁', h₂', h₃', h₄', h₅'⟩ := (AreWords.mk h₁ h₂ h₃ h₄ h₅).after s
  unfold deltas at hv
  split at hv
  · simp only [List.mem_singleton] at hv
    omega
  · split at hv
    · simp only [List.mem_cons, List.not_mem_nil, or_false] at hv
      omega
    · simp only [List.mem_append, List.mem_cons, List.not_mem_nil, or_false] at hv
      omega

theorem natAbs_le_of_mem_segmentDeltas (h : t.AreWords) {segments : List Segment}
    {values : List Int} (hvalues : values ∈ t.segmentDeltas segments) :
    ∀ v ∈ values, v.natAbs ≤ maxWord := by
  induction segments generalizing t with
  | nil => cases hvalues
  | cons s segments ih =>
      cases List.mem_cons.1 hvalues with
      | inl heq =>
          intro v hv
          exact h.natAbs_le_of_mem_deltas (heq ▸ hv)
      | inr hrest => exact ih (h.after s) hrest

/-- The numbers of a line are differences of words. -/
theorem natAbs_le_of_mem_lineDeltas (h : t.AreWords) {lines : Lines} {line : List (List Int)}
    (hline : line ∈ t.lineDeltas lines) :
    ∀ values ∈ line, ∀ v ∈ values, v.natAbs ≤ maxWord := by
  induction lines generalizing t with
  | nil => cases hline
  | cons segments lines ih =>
      cases List.mem_cons.1 hline with
      | inl heq =>
          intro values hvalues
          exact h.natAbs_le_of_mem_segmentDeltas (heq ▸ hvalues)
      | inr hrest => exact ih (h.foldl_after segments).nextLine hrest

end Totals.AreWords

end BundleCoverage.SourceMap
