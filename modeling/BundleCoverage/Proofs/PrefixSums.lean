import BundleCoverage.Proofs.Deltas
import BundleCoverage.Proofs.Numbers

/-!
# Mappings as prefix sums

A mappings text is described here without the totals that reading carries along.  Each of its
segments stands behind others, on its line and in the whole text (`PlacedSegment`).  The value of a
field is the sum of the numbers in this field up to the segment, for the generated column on its
line only (`PlacedSegment.total`).

Reading succeeds just if each segment has one, four or five whole numbers and keeps its fields in
range (`PlacedSegment.IsAccepted`), and gives these sums.  Otherwise it names the first segment that
is not accepted (`decode_eq_prefixSums`).
-/

namespace BundleCoverage.SourceMap

open BundleCoverage

/-! ## Fields -/

/-- The place of a field among the numbers of a segment. -/
def Field.number : Field → Nat
  | .generatedColumn => 0
  | .sourceIndex => 1
  | .originalLine => 2
  | .originalColumn => 3
  | .nameIndex => 4

/-- The largest value of a field.  Original lines can be counted from one. -/
def Field.largest : Field → Nat
  | .originalLine => maxWord - 1
  | _ => maxWord

/-- The value of a field of a segment, if it has the field. -/
def Segment.value? (s : Segment) : Field → Option Nat
  | .generatedColumn => some s.generatedColumn.toNat
  | .sourceIndex => s.source.map (·.sourceIndex.toNat)
  | .originalLine => s.source.map (·.originalLine.toNat)
  | .originalColumn => s.source.map (·.originalColumn.toNat)
  | .nameIndex => (s.source.bind (·.nameIndex)).map (·.toNat)

/-- A segment is known by the values of its fields. -/
theorem Segment.eq_of_value? {s s' : Segment} (h : ∀ field, s.value? field = s'.value? field) :
    s = s' := by
  obtain ⟨column, source⟩ := s
  obtain ⟨column', source'⟩ := s'
  have hcolumn := h .generatedColumn
  have hsource := h .sourceIndex
  have hline := h .originalLine
  have horiginal := h .originalColumn
  have hname := h .nameIndex
  simp only [value?, Option.some.injEq, UInt32.toNat_inj] at hcolumn
  subst hcolumn
  cases source with
  | none =>
      cases source' with
      | none => rfl
      | some p' => cases hsource
  | some p =>
      cases source' with
      | none => cases hsource
      | some p' =>
          simp only [value?, Option.map_some, Option.some.injEq, UInt32.toNat_inj]
            at hsource hline horiginal
          have hname : p.nameIndex = p'.nameIndex :=
            Option.map_injective (fun a b => UInt32.toNat_inj.1) hname
          cases p
          cases p'
          simp_all

/-- The numbers that the digits of a text stand for. -/
def Vlq.values (text : List Char) : List Int := (Vlq.numbers text).map Vlq.value

/-- The sum of the numbers that some segments have in a field. -/
def fieldSum (field : Field) (segments : List (List Char)) : Int :=
  (segments.filterMap fun segment => (Vlq.values segment)[field.number]?).foldr (· + ·) 0

/-! ## Segments where they stand -/

/-- A segment where it stands in a text. -/
structure PlacedSegment where
  /-- The segment. -/
  segment : List Char
  /-- The segments before it on its line. -/
  onLine : List (List Char)
  /-- The segments before it in the whole text. -/
  inText : List (List Char)

/-- The segments of a line behind others, each where it stands. -/
def placedOnLine (onLine inText : List (List Char)) : List (List Char) → List PlacedSegment
  | [] => []
  | segment :: segments =>
    ⟨segment, onLine, inText⟩
      :: placedOnLine (onLine ++ [segment]) (inText ++ [segment]) segments

/-- The segments of some lines behind others, each where it stands. -/
def placedFrom (inText : List (List Char)) : List (List (List Char)) → List (List PlacedSegment)
  | [] => []
  | segments :: lines =>
    placedOnLine [] inText segments :: placedFrom (inText ++ segments) lines

/-- The segments of each line of a text that are not empty, each where it stands. -/
def placedSegments (text : String) : List (List PlacedSegment) :=
  placedFrom [] ((Text.split ';' text.toList).map segmentTexts)

namespace PlacedSegment

/-- The numbers of the segment. -/
def values (o : PlacedSegment) : List Int := Vlq.values o.segment

/-- Whether the segment has a field. -/
def Has (o : PlacedSegment) (field : Field) : Prop := field.number < o.values.length

instance (o : PlacedSegment) (field : Field) : Decidable (o.Has field) :=
  inferInstanceAs (Decidable (_ < _))

/-- The sum of the numbers in a field up to the segment: on its line for the generated column, and
in the whole text for the other fields. -/
def total (o : PlacedSegment) (field : Field) : Int :=
  fieldSum field ((if field = .generatedColumn then o.onLine else o.inText) ++ [o.segment])

/-- Whether the segment can be read where it stands. -/
structure IsAccepted (o : PlacedSegment) : Prop where
  /-- It consists of whole numbers of at most twelve digits. -/
  numbers : ∀ number ∈ Vlq.numbers o.segment, Vlq.IsNumber number ∧ number.length ≤ 12
  /-- There are one, four or five of them. -/
  count : o.values.length = 1 ∨ o.values.length = 4 ∨ o.values.length = 5
  /-- Each of its fields is in range. -/
  inRange : ∀ field, o.Has field → 0 ≤ o.total field ∧ o.total field ≤ field.largest

/-- Whether a segment that was read has the fields of one that stands in a text, with the sums for
values. -/
def Gives (o : PlacedSegment) (s : Segment) : Prop :=
  ∀ field, (s.value? field).map Int.ofNat = if o.Has field then some (o.total field) else none

theorem rightUnique_gives : Relator.RightUnique Gives := by
  intro o s s' h h'
  refine Segment.eq_of_value? fun field => ?_
  have heq := (h field).trans (h' field).symm
  exact Option.map_injective (fun a b => Int.ofNat.inj) heq

end PlacedSegment

/-- Whether the first of some segments that is not accepted stands behind a number of others. -/
def FirstRefused (os : List PlacedSegment) (n : Nat) : Prop :=
  ∃ before o after, os = before ++ o :: after ∧ (∀ b ∈ before, b.IsAccepted) ∧ ¬ o.IsAccepted ∧
    n = before.length

/-! ## Totals -/

/-- The total of a field. -/
def Totals.value (t : Totals) : Field → Int
  | .generatedColumn => t.generatedColumn
  | .sourceIndex => t.sourceIndex
  | .originalLine => t.originalLine
  | .originalColumn => t.originalColumn
  | .nameIndex => t.nameIndex

/-- Whether some totals are the sums over the segments of a line and of a text. -/
def Totals.IsSum (t : Totals) (onLine inText : List (List Char)) : Prop :=
  ∀ field, t.value field = fieldSum field (if field = .generatedColumn then onLine else inText)

theorem fieldSum_cons (field : Field) (segment : List Char) (segments : List (List Char)) :
    fieldSum field (segment :: segments)
      = ((Vlq.values segment)[field.number]?).getD 0 + fieldSum field segments := by
  cases h : (Vlq.values segment)[field.number]? with
  | none => simp [fieldSum, h]
  | some v => simp [fieldSum, h]

theorem fieldSum_concat (field : Field) (segments : List (List Char)) (segment : List Char) :
    fieldSum field (segments ++ [segment])
      = fieldSum field segments + ((Vlq.values segment)[field.number]?).getD 0 := by
  induction segments with
  | nil =>
      rw [List.nil_append, fieldSum_cons]
      exact Int.add_comm _ _
  | cons first segments ih => rw [List.cons_append, fieldSum_cons, fieldSum_cons, ih, Int.add_assoc]

namespace Totals

variable {t : Totals}

/-- The numbers of a segment are added to the totals of their fields. -/
theorem value_add {values : List Int}
    (h : values.length = 1 ∨ values.length = 4 ∨ values.length = 5) (field : Field) :
    (t.add values).value field = t.value field + (values[field.number]?).getD 0 := by
  match values with
  | [_] => cases field <;> simp [add, value, Field.number]
  | [_, _, _, _] => cases field <;> simp [add, value, Field.number]
  | [_, _, _, _, _] => cases field <;> simp [add, value, Field.number]
  | [] => simp at h
  | [_, _] => simp at h
  | [_, _, _] => simp at h
  | _ :: _ :: _ :: _ :: _ :: _ :: _ => simp at h

theorem isSum_initial : IsSum {} [] [] := by
  intro field
  cases field <;> rfl

theorem IsSum.nextLine {onLine inText : List (List Char)} (h : t.IsSum onLine inText) :
    t.nextLine.IsSum [] inText := by
  intro field
  cases field with
  | generatedColumn => rfl
  | sourceIndex => exact h .sourceIndex
  | originalLine => exact h .originalLine
  | originalColumn => exact h .originalColumn
  | nameIndex => exact h .nameIndex

/-- With the numbers of a segment added, the totals are the sums up to this segment. -/
theorem IsSum.add {o : PlacedSegment} (h : t.IsSum o.onLine o.inText)
    (hcount : o.values.length = 1 ∨ o.values.length = 4 ∨ o.values.length = 5) (field : Field) :
    (t.add o.values).value field = o.total field := by
  rw [value_add hcount, h field, PlacedSegment.total]
  split <;> rw [fieldSum_concat] <;> rfl

theorem IsSum.after {o : PlacedSegment} (h : t.IsSum o.onLine o.inText)
    (hcount : o.values.length = 1 ∨ o.values.length = 4 ∨ o.values.length = 5) :
    (t.add o.values).IsSum (o.onLine ++ [o.segment]) (o.inText ++ [o.segment]) := by
  intro field
  rw [h.add hcount, PlacedSegment.total]
  split <;> rfl

/-! ## One segment -/

theorem segment_count {n : Nat} {s : Segment} (h : t.segment n = .ok s) :
    n = 1 ∨ n = 4 ∨ n = 5 := by
  match n with
  | 1 => exact .inl rfl
  | 4 => exact .inr (.inl rfl)
  | 5 => exact .inr (.inr rfl)
  | 0 => cases h
  | 2 => cases h
  | 3 => cases h
  | _ + 6 => cases h

/-- A segment that is read has the totals of its fields for values. -/
theorem value?_of_segment {n : Nat} {s : Segment} (h : t.segment n = .ok s) (field : Field) :
    (s.value? field).map Int.ofNat = if field.number < n then some (t.value field) else none := by
  rcases segment_count h with rfl | rfl | rfl
  · obtain ⟨hsource, hcolumn⟩ := segment_one_eq_ok_iff.1 h
    cases field <;> simp [Segment.value?, Field.number, value, hsource, hcolumn]
  · obtain ⟨p, hsource, hp, hcolumn⟩ := segment_four_eq_ok_iff.1 h
    obtain ⟨⟨hindex, hline, horiginal⟩, hname, -⟩ := position_eq_ok_iff.1 hp
    cases field <;>
      simp [Segment.value?, Field.number, value, hsource, hcolumn, hindex, hline, horiginal, hname]
  · obtain ⟨p, name, hsource, hindexed, hp, hcolumn⟩ := segment_five_eq_ok_iff.1 h
    obtain ⟨⟨hindex, hline, horiginal⟩, hname, -⟩ := position_eq_ok_iff.1 hp
    cases field <;>
      simp [Segment.value?, Field.number, value, hsource, hcolumn, hindex, hline, horiginal, hname,
        hindexed]

theorem hasLine_of_segment {n : Nat} {s : Segment} (h : t.segment n = .ok s) : s.HasLine := by
  intro q hq
  rcases segment_count h with rfl | rfl | rfl
  · rw [(segment_one_eq_ok_iff.1 h).1] at hq
    cases hq
  · obtain ⟨p, hsource, hp, -⟩ := segment_four_eq_ok_iff.1 h
    rw [hsource] at hq
    cases hq
    exact (position_eq_ok_iff.1 hp).2.2
  · obtain ⟨p, name, hsource, -, hp, -⟩ := segment_five_eq_ok_iff.1 h
    rw [hsource] at hq
    cases hq
    exact (position_eq_ok_iff.1 hp).2.2

theorem value?_le_largest {s : Segment} (h : s.HasLine) {field : Field} {v : Nat}
    (hv : s.value? field = some v) : v ≤ field.largest := by
  have hword (w : UInt32) : w.toNat ≤ maxWord := by exact_mod_cast (toNat_isWord w).2
  cases field with
  | generatedColumn =>
      cases hv
      exact hword _
  | sourceIndex =>
      obtain ⟨p, -, rfl⟩ := Option.map_eq_some_iff.1 hv
      exact hword _
  | originalLine =>
      obtain ⟨p, hp, rfl⟩ := Option.map_eq_some_iff.1 hv
      have := hword p.originalLine
      have := h p hp
      simp only [Field.largest]
      omega
  | originalColumn =>
      obtain ⟨p, -, rfl⟩ := Option.map_eq_some_iff.1 hv
      exact hword _
  | nameIndex =>
      obtain ⟨name, -, rfl⟩ := Option.map_eq_some_iff.1 hv
      exact hword _

/-- A total in the range of its field is the value of a word. -/
theorem exists_word {field : Field} (h : 0 ≤ t.value field ∧ t.value field ≤ field.largest) :
    ∃ w : UInt32, t.value field = w.toNat ∧ w.toNat ≤ field.largest := by
  have hlargest : field.largest ≤ maxWord := by cases field <;> decide
  have hword : (t.value field).toNat < 4294967296 := by
    simp only [maxWord] at hlargest
    omega
  refine ⟨UInt32.ofNat (t.value field).toNat, ?_⟩
  rw [UInt32.toNat_ofNat_of_lt' hword]
  omega

theorem exists_position (name : Option UInt32)
    (h : ∀ field : Field, field.number < 4 → 0 ≤ t.value field ∧ t.value field ≤ field.largest) :
    ∃ p, t.position name = .ok p := by
  obtain ⟨source, hsource, -⟩ := exists_word (h .sourceIndex (by decide))
  obtain ⟨line, hline, hlargest⟩ := exists_word (h .originalLine (by decide))
  obtain ⟨column, hcolumn, -⟩ := exists_word (h .originalColumn (by decide))
  refine ⟨⟨source, line, column, name⟩, ?_⟩
  refine position_eq_ok_iff.2 ⟨⟨hsource, hline, hcolumn⟩, rfl, fun hmax => ?_⟩
  rw [hmax] at hlargest
  exact absurd hlargest (by decide)

/-- A segment is read just if the totals of its fields are in range. -/
theorem exists_segment_iff {n : Nat} (hn : n = 1 ∨ n = 4 ∨ n = 5) :
    (∃ s, t.segment n = .ok s) ↔
      ∀ field : Field, field.number < n → 0 ≤ t.value field ∧ t.value field ≤ field.largest := by
  constructor
  · rintro ⟨s, hs⟩ field hfield
    have hvalue := value?_of_segment hs field
    rw [if_pos hfield] at hvalue
    obtain ⟨v, hv, heq⟩ := Option.map_eq_some_iff.1 hvalue
    have := value?_le_largest (hasLine_of_segment hs) hv
    simp only [Int.ofNat_eq_natCast] at heq
    omega
  · intro h
    have hfirst : Field.generatedColumn.number < n := by
      simp only [Field.number]
      omega
    obtain ⟨column, hcolumn, -⟩ := exists_word (h .generatedColumn hfirst)
    rcases hn with rfl | rfl | rfl
    · exact ⟨⟨column, none⟩, segment_one_eq_ok_iff.2 ⟨rfl, hcolumn⟩⟩
    · obtain ⟨p, hp⟩ := exists_position none h
      exact ⟨⟨column, p⟩, segment_four_eq_ok_iff.2 ⟨p, rfl, hp, hcolumn⟩⟩
    · obtain ⟨name, hname, -⟩ := exists_word (h .nameIndex (by decide))
      obtain ⟨p, hp⟩ := exists_position (some name) fun field hlt => h field (by omega)
      exact ⟨⟨column, p⟩, segment_five_eq_ok_iff.2 ⟨p, name, rfl, hname, hp, hcolumn⟩⟩

theorem read_of_numbers {text : List Char}
    (h : ∀ number ∈ Vlq.numbers text, Vlq.IsNumber number ∧ number.length ≤ 12) :
    t.read text = ((t.add (Vlq.values text)).segment (Vlq.values text).length).map
      fun s => (t.add (Vlq.values text), s) := by
  rw [read, Vlq.decode_eq_ok_iff.2 ⟨h, rfl⟩]
  rfl

theorem exists_read_eq_error {text : List Char}
    (h : ¬ ∀ number ∈ Vlq.numbers text, Vlq.IsNumber number ∧ number.length ≤ 12) :
    ∃ fault, t.read text = .error fault := by
  cases hvalues : Vlq.decode text with
  | error fault => exact ⟨.number fault, by rw [read, hvalues]⟩
  | ok values => exact absurd (Vlq.decode_eq_ok_iff.1 hvalues).1 h

/-- A segment is read where it stands just if it is accepted there.  What is read has the sums for
values, and the totals are then the sums up to it. -/
theorem IsSum.read_cases {o : PlacedSegment} (h : t.IsSum o.onLine o.inText) :
    (o.IsAccepted ∧ ∃ t' s, t.read o.segment = .ok (t', s) ∧ o.Gives s ∧
        t'.IsSum (o.onLine ++ [o.segment]) (o.inText ++ [o.segment])) ∨
      (¬ o.IsAccepted ∧ ∃ fault, t.read o.segment = .error fault) := by
  by_cases hnumbers : ∀ number ∈ Vlq.numbers o.segment, Vlq.IsNumber number ∧ number.length ≤ 12
  · have hread : t.read o.segment = ((t.add o.values).segment o.values.length).map
        fun s => (t.add o.values, s) := read_of_numbers hnumbers
    cases hsegment : (t.add o.values).segment o.values.length with
    | ok s =>
        have hcount := segment_count hsegment
        have hrange := (exists_segment_iff hcount).1 ⟨s, hsegment⟩
        rw [hsegment] at hread
        refine .inl ⟨⟨hnumbers, hcount, fun field hfield => ?_⟩, _, s, hread, fun field => ?_,
          h.after hcount⟩
        · rw [← h.add hcount]
          exact hrange field hfield
        · rw [← h.add hcount]
          exact value?_of_segment hsegment field
    | error fault =>
        rw [hsegment] at hread
        refine .inr ⟨fun haccepted => ?_, fault, hread⟩
        obtain ⟨s, hs⟩ := (exists_segment_iff haccepted.count).2 fun field hfield => by
          rw [h.add haccepted.count]
          exact haccepted.inRange field hfield
        rw [hsegment] at hs
        cases hs
  · exact .inr ⟨fun haccepted => hnumbers haccepted.numbers, exists_read_eq_error hnumbers⟩

end Totals

/-! ## The first segment that is not accepted -/

namespace FirstRefused

variable {os os' : List PlacedSegment} {o : PlacedSegment} {n : Nat}

theorem head (h : ¬ o.IsAccepted) (os : List PlacedSegment) : FirstRefused (o :: os) 0 :=
  ⟨[], o, os, rfl, by simp, h, rfl⟩

theorem append_left (hos : ∀ o ∈ os, o.IsAccepted) (h : FirstRefused os' n) :
    FirstRefused (os ++ os') (os.length + n) := by
  obtain ⟨before, o, after, rfl, hbefore, ho, rfl⟩ := h
  refine ⟨os ++ before, o, after, by simp, ?_, ho, by simp⟩
  exact List.forall_mem_append.2 ⟨hos, hbefore⟩

theorem append_right (h : FirstRefused os n) (os' : List PlacedSegment) :
    FirstRefused (os ++ os') n := by
  obtain ⟨before, o, after, rfl, hbefore, ho, rfl⟩ := h
  exact ⟨before, o, after ++ os', by simp, hbefore, ho, rfl⟩

theorem not_accepted (h : FirstRefused os n) : ¬ ∀ o ∈ os, o.IsAccepted := by
  obtain ⟨before, o, after, rfl, -, ho, -⟩ := h
  intro hall
  exact ho (hall o (by simp))

theorem unique {n' : Nat} (h : FirstRefused os n) (h' : FirstRefused os n') : n = n' := by
  obtain ⟨before, o, after, rfl, hbefore, ho, rfl⟩ := h
  obtain ⟨before', o', after', heq, hbefore', ho', rfl⟩ := h'
  induction before generalizing before' with
  | nil =>
      cases before' with
      | nil => rfl
      | cons b before' =>
          obtain ⟨rfl, -⟩ := List.cons.inj heq
          exact absurd (hbefore' o (List.mem_cons_self ..)) ho
  | cons b before ih =>
      cases before' with
      | nil =>
          obtain ⟨rfl, -⟩ := List.cons.inj heq
          exact absurd (hbefore b (List.mem_cons_self ..)) ho'
      | cons b' before' =>
          obtain ⟨-, heq⟩ := List.cons.inj heq
          rw [List.length_cons, List.length_cons,
            ih (List.forall_mem_cons.1 hbefore).2 before' heq (List.forall_mem_cons.1 hbefore').2]

end FirstRefused

/-! ## Lines and texts -/

/-- The segments of a line are read just if all of them are accepted. -/
theorem decodeSegments_cases {t : Totals} {onLine inText : List (List Char)}
    (h : t.IsSum onLine inText) (index : Nat) (segments : List (List Char)) :
    ((∀ o ∈ placedOnLine onLine inText segments, o.IsAccepted) ∧
        ∃ t' line, decodeSegments t index segments = .ok (t', line) ∧
          List.Forall₂ PlacedSegment.Gives (placedOnLine onLine inText segments) line ∧
          t'.IsSum (onLine ++ segments) (inText ++ segments)) ∨
      ∃ n fault, FirstRefused (placedOnLine onLine inText segments) n ∧
        decodeSegments t index segments = .error ⟨index + n, fault⟩ := by
  induction segments generalizing t onLine inText index with
  | nil => exact .inl ⟨by simp [placedOnLine], t, [], rfl, .nil, by simpa using h⟩
  | cons segment segments ih =>
      rw [placedOnLine, decodeSegments]
      rcases Totals.IsSum.read_cases (o := ⟨segment, onLine, inText⟩) h with
        ⟨haccepted, t₁, s, hread, hgives, hsum⟩ | ⟨hrefused, fault, hread⟩
      · simp only at hread hsum
        rw [hread]
        rcases ih hsum (index + 1) with
          ⟨hall, t', line, hline, hgiven, hsum'⟩ | ⟨n, fault, hfirst, hline⟩
        · refine .inl ⟨List.forall_mem_cons.2 ⟨haccepted, hall⟩, t', s :: line, ?_,
            .cons hgives hgiven, by simpa using hsum'⟩
          simp only [hline]
          rfl
        · refine .inr ⟨n + 1, fault, ?_, ?_⟩
          · rw [Nat.add_comm]
            exact hfirst.append_left (List.forall_mem_singleton.2 haccepted)
          · simp only [hline]
            rw [Nat.add_assoc, Nat.add_comm 1 n]
            rfl
      · refine .inr ⟨0, fault, .head hrefused _, ?_⟩
        simp only at hread
        rw [hread]
        rfl

theorem length_placedOnLine (onLine inText segments : List (List Char)) :
    (placedOnLine onLine inText segments).length = segments.length := by
  induction segments generalizing onLine inText with
  | nil => rfl
  | cons segment segments ih => rw [placedOnLine, List.length_cons, ih, List.length_cons]

/-- The lines of a text are read just if all segments are accepted. -/
theorem decodeGroups_cases {t : Totals} {inText : List (List Char)} (h : t.IsSum [] inText)
    (index : Nat) (groups : List (List Char)) :
    ((∀ o ∈ (placedFrom inText (groups.map segmentTexts)).flatten, o.IsAccepted) ∧
        ∃ lines, decodeGroups t index groups = .ok lines ∧
          List.Forall₂ (List.Forall₂ PlacedSegment.Gives)
            (placedFrom inText (groups.map segmentTexts)) lines) ∨
      ∃ n fault, FirstRefused (placedFrom inText (groups.map segmentTexts)).flatten n ∧
        decodeGroups t index groups = .error ⟨index + n, fault⟩ := by
  induction groups generalizing t inText index with
  | nil => exact .inl ⟨by simp [placedFrom], [], rfl, .nil⟩
  | cons group groups ih =>
      rw [List.map_cons, placedFrom, decodeGroups, List.flatten_cons]
      rcases decodeSegments_cases h index (segmentTexts group) with
        ⟨hall, t₁, line, hline, hgiven, hsum⟩ | ⟨n, fault, hfirst, hline⟩
      · rcases ih hsum.nextLine (index + (segmentTexts group).length) with
          ⟨hrest, lines, hlines, hgivens⟩ | ⟨n, fault, hfirst, hlines⟩
        · refine .inl ⟨List.forall_mem_append.2 ⟨hall, hrest⟩, line :: lines, ?_,
            .cons hgiven hgivens⟩
          simp only [hline, hlines, bind, Except.bind]
          rfl
        · refine .inr ⟨_, fault, hfirst.append_left hall, ?_⟩
          simp only [hline, hlines, bind, Except.bind, length_placedOnLine, Nat.add_assoc]
      · refine .inr ⟨n, fault, hfirst.append_right _, ?_⟩
        simp only [hline, bind, Except.bind]

section Text

variable (text : String)

theorem decode_cases :
    ((∀ o ∈ (placedSegments text).flatten, o.IsAccepted) ∧
        ∃ lines, decode text = .ok lines ∧
          List.Forall₂ (List.Forall₂ PlacedSegment.Gives) (placedSegments text) lines) ∨
      ∃ n fault, FirstRefused (placedSegments text).flatten n ∧
        decode text = .error ⟨n, fault⟩ := by
  rcases decodeGroups_cases Totals.isSum_initial 0 (Text.split ';' text.toList) with
    hread | ⟨n, fault, hfirst, hread⟩
  · exact .inl hread
  · rw [Nat.zero_add] at hread
    exact .inr ⟨n, fault, hfirst, hread⟩

theorem decode_eq_ok_iff {lines : Lines} :
    decode text = .ok lines ↔
      (∀ o ∈ (placedSegments text).flatten, o.IsAccepted) ∧
        List.Forall₂ (List.Forall₂ PlacedSegment.Gives) (placedSegments text) lines := by
  rcases decode_cases text with ⟨hall, lines', hread, hgiven⟩ | ⟨n, fault, hfirst, hread⟩
  · rw [hread, Except.ok.injEq, and_iff_right hall]
    constructor
    · rintro rfl
      exact hgiven
    · intro hgiven'
      exact PlacedSegment.rightUnique_gives.forall₂.forall₂ hgiven hgiven'
  · rw [hread]
    exact iff_of_false (fun h => by cases h) fun h => hfirst.not_accepted h.1

theorem exists_decode_eq_ok_iff :
    (∃ lines, decode text = .ok lines) ↔ ∀ o ∈ (placedSegments text).flatten, o.IsAccepted := by
  constructor
  · rintro ⟨lines, hread⟩
    exact ((decode_eq_ok_iff text).1 hread).1
  · intro hall
    rcases decode_cases text with ⟨-, lines, hread, -⟩ | ⟨n, fault, hfirst, -⟩
    · exact ⟨lines, hread⟩
    · exact absurd hall hfirst.not_accepted

theorem exists_decode_eq_error_iff {n : Nat} :
    (∃ fault, decode text = .error ⟨n, fault⟩) ↔
      FirstRefused (placedSegments text).flatten n := by
  rcases decode_cases text with ⟨hall, lines, hread, -⟩ | ⟨n', fault, hfirst, hread⟩
  · rw [hread]
    exact iff_of_false (fun ⟨_, h⟩ => by cases h) fun h => h.not_accepted hall
  · rw [hread]
    constructor
    · rintro ⟨fault', herror⟩
      cases herror
      exact hfirst
    · intro hfirst'
      rw [hfirst.unique hfirst']
      exact ⟨fault, rfl⟩

/-- A mappings text is read just if each of its segments is accepted where it stands.  There is one
line for each group, and the fields of the segments are prefix sums of the numbers.  Otherwise the
fault has the number of the first segment that is not accepted. -/
theorem decode_eq_prefixSums :
    ((∃ lines, decode text = .ok lines) ↔ ∀ o ∈ (placedSegments text).flatten, o.IsAccepted) ∧
      (∀ lines, decode text = .ok lines ↔
        (∀ o ∈ (placedSegments text).flatten, o.IsAccepted) ∧
          List.Forall₂ (List.Forall₂ PlacedSegment.Gives) (placedSegments text) lines) ∧
      ∀ n, (∃ fault, decode text = .error ⟨n, fault⟩) ↔
        FirstRefused (placedSegments text).flatten n :=
  ⟨exists_decode_eq_ok_iff text, fun _ => decode_eq_ok_iff text,
    fun _ => exists_decode_eq_error_iff text⟩

end Text

-- Empty segments have no number.
example : decode "A,,C;CA" = .error ⟨2, .fieldCount 2⟩ := by decide

end BundleCoverage.SourceMap
