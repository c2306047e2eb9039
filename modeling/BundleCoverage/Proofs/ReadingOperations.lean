import BundleCoverage.Proofs.TracedReading

/-!
# The operations of reading fit

What is computed while a mappings text is read can be done with 64-bit words.  Before each digit, the
bits of a number are no more than its shift says (`Pending.IsShort`), and before each sum, the totals
are 32-bit words (`Totals.AreWords`), since a total out of range ends reading.  So neither
accumulators nor totals reach sixty bits (`Operation.Fits`).

The operations are those of the traced readers, which come to what the readers come to, whether the
text is refused or not.  The numbers and the segments that are read are results of operations
(`Vlq.numbers_of_decodeFrom`, `sums_of_decodeGroups`).
-/

namespace BundleCoverage.SourceMap

open BundleCoverage Base64 Traced

/-! ## Bounds -/

namespace Operation

/-- Whether an operation stays within its bounds: no shift is wider than 55 bits, an accumulator has
at most sixty bits, the number that is looked up is there, and the total lies strictly between the
two powers of two with exponent sixty. -/
def Fits : Operation → Prop
  | .digit p bits => p.shift ≤ 55 ∧ p.value + bits <<< p.shift < Nat.pow 2 60
  | .number word => word < Nat.pow 2 60
  | .sum field total values =>
    ∃ number, values[field.number]? = some number ∧ (total + number).natAbs < Nat.pow 2 60

/-- Nothing that is computed within the bounds has more than sixty bits. -/
theorem Fits.natAbs_lt {op : Operation} (h : op.Fits) :
    ∀ n ∈ op.results, n.natAbs < 1152921504606846976 := by
  have hpow : Nat.pow 2 60 = 1152921504606846976 := rfl
  cases op with
  | digit p bits =>
      obtain ⟨-, hvalue⟩ := h
      simp only [results, result, List.mem_cons, List.not_mem_nil, or_false, forall_eq_or_imp,
        forall_eq, Int.ofNat_eq_natCast, Int.natAbs_natCast]
      omega
  | number word =>
      have hword : word < 1152921504606846976 := h
      simp only [results, result, List.mem_cons, List.not_mem_nil, or_false, forall_eq_or_imp,
        forall_eq, Int.ofNat_eq_natCast, Int.natAbs_natCast]
      refine ⟨by omega, ?_⟩
      unfold Vlq.ofWord
      split <;> simp only [Int.ofNat_eq_natCast] <;> omega
  | sum field total values =>
      obtain ⟨number, hnumber, htotal⟩ := h
      simp only [results, result, hnumber, Option.getD_some, List.forall_mem_singleton]
      omega

/-- Nor does it overflow a word of 64 bits. -/
theorem Fits.toInt_ofInt {op : Operation} (h : op.Fits) :
    ∀ n ∈ op.results, (Int64.ofInt n).toInt = n := by
  intro n hn
  have := h.natAbs_lt n hn
  exact Int64.toInt_ofInt_of_le (by omega) (by omega)

end Operation

/-! ## Digits -/

namespace Vlq

/-- Whether the bits so far are no more than the shift says. -/
def Pending.IsShort (p : Pending) : Prop := p.value < Nat.pow 2 p.shift

theorem Pending.isShort_initial : IsShort {} := Nat.one_pos

/-- Five more bits are five more bits. -/
theorem Pending.IsShort.digit {p : Pending} (h : p.IsShort) {bits : Nat} (hbits : bits < 32) :
    p.value + bits <<< p.shift < Nat.pow 2 (p.shift + 5) := by
  have hmul := Nat.mul_le_mul_right (Nat.pow 2 p.shift) hbits
  have hpow : Nat.pow 2 (p.shift + 5) = 32 * Nat.pow 2 p.shift := by
    rw [Nat.mul_comm]
    exact Nat.pow_add 2 p.shift 5
  unfold IsShort at h
  rw [Nat.succ_mul] at hmul
  rw [hpow, Nat.shiftLeft_eq]
  show p.value + bits * Nat.pow 2 p.shift < _
  omega

/-- A character that is refused makes no operation.  The bits of any other one are put in front of
those so far, and it makes a number if it is the last. -/
theorem operationsFrom_cons (p : Pending) (c : Char) (text : List Char) :
    operationsFrom p (c :: text) = [] ∨
      p.shift ≤ 55 ∧ ∃ bits < 32,
        operationsFrom p (c :: text)
          = .digit p bits :: .number (p.value + bits <<< p.shift) :: operationsFrom {} text ∨
        operationsFrom p (c :: text)
          = .digit p bits :: operationsFrom ⟨p.value + bits <<< p.shift, p.shift + 5⟩ text := by
  simp only [operationsFrom, traceFrom]
  cases digitValue? c with
  | none => exact .inl rfl
  | some d =>
      dsimp only
      by_cases hshift : 55 < p.shift
      · exact .inl (by rw [if_pos hshift]; rfl)
      · refine .inr ⟨Nat.le_of_not_lt hshift, d % 32, Nat.mod_lt d (by decide), ?_⟩
        rw [if_neg hshift, operations_compute_bind]
        by_cases hlast : d < 32
        · rw [if_pos hlast, operations_compute_bind, operations_bind_pure]
          exact .inl rfl
        · rw [if_neg hlast]
          exact .inr rfl

/-- While the numbers of a text are read, accumulators stay within sixty bits. -/
theorem fits_operationsFrom {p : Pending} (hp : p.IsShort) (text : List Char) :
    ∀ op ∈ operationsFrom p text, op.Fits := by
  induction text generalizing p with
  | nil => simp [operationsFrom, traceFrom]
  | cons c text ih =>
      obtain hnone | ⟨hshift, bits, hbits, hnext⟩ := operationsFrom_cons p c text
      · simp [hnone]
      · have hvalue := hp.digit hbits
        have hle : Nat.pow 2 (p.shift + 5) ≤ Nat.pow 2 60 :=
          Nat.pow_le_pow_right (by decide) (by omega)
        have hfits : p.value + bits <<< p.shift < Nat.pow 2 60 := Nat.lt_of_lt_of_le hvalue hle
        have hdigit : (Operation.digit p bits).Fits := ⟨hshift, hfits⟩
        rcases hnext with hlast | hmore
        · rw [hlast, List.forall_mem_cons, List.forall_mem_cons]
          exact ⟨hdigit, hfits, ih Pending.isShort_initial⟩
        · rw [hmore, List.forall_mem_cons]
          exact ⟨hdigit, ih hvalue⟩

/-- The numbers that are read are those that are made. -/
theorem numbers_of_decodeFrom {p : Pending} {text : List Char} {values : List Int}
    (h : decodeFrom p text = .ok values) :
    (operationsFrom p text).filterMap Operation.number? = values := by
  rw [← outcome_traceFrom] at h
  rw [operationsFrom]
  induction text generalizing p values with
  | nil =>
      rw [traceFrom, outcome_lift] at h
      split at h
      · cases h
        rfl
      · cases h
  | cons c text ih =>
      rw [traceFrom] at h ⊢
      cases hc : digitValue? c with
      | none => simp [hc] at h
      | some d =>
          by_cases hshift : 55 < p.shift
          · simp [hc, hshift] at h
          · simp only [hc, if_neg hshift] at h ⊢
            rw [outcome_compute_bind] at h
            rw [operations_compute_bind, List.filterMap_cons_none rfl]
            by_cases hlast : d < 32
            · rw [if_pos hlast, outcome_compute_bind, outcome_bind] at h
              rw [if_pos hlast, operations_compute_bind, operations_bind_pure]
              cases hrest : (traceFrom {} text).outcome with
              | error fault =>
                  rw [hrest] at h
                  cases h
              | ok rest =>
                  rw [hrest] at h
                  cases h
                  exact congrArg (_ :: ·) (ih hrest)
            · rw [if_neg hlast] at h ⊢
              exact ih h

theorem sums_operationsFrom (p : Pending) (text : List Char) :
    (operationsFrom p text).filterMap Operation.sum? = [] := by
  induction text generalizing p with
  | nil => simp [operationsFrom, traceFrom]
  | cons c text ih =>
      obtain hnone | ⟨-, bits, -, hlast | hmore⟩ := operationsFrom_cons p c text
      · simp [hnone]
      · rw [hlast]
        exact ih {}
      · rw [hmore]
        exact ih _

/-- A text that is not empty has a number. -/
theorem ne_nil_of_decode {text : List Char} {values : List Int} (h : decode text = .ok values)
    (hne : text ≠ []) : values ≠ [] := by
  rintro rfl
  obtain ⟨-, hvalues⟩ := decode_eq_ok_iff.1 h
  rw [eq_comm, List.map_eq_nil_iff] at hvalues
  have hflatten := flatten_numbers text
  rw [hvalues] at hflatten
  exact hne hflatten.symm

/-- The magnitude of a number that is read has at most fifty-nine bits. -/
theorem natAbs_lt_of_decode {text : List Char} {values : List Int}
    (h : decode text = .ok values) : ∀ v ∈ values, v.natAbs < 576460752303423488 := by
  obtain ⟨hnumbers, rfl⟩ := decode_eq_ok_iff.1 h
  rw [List.forall_mem_map]
  intro number hmem
  obtain ⟨hnumber, hlen⟩ := hnumbers number hmem
  have hpow : Nat.pow 32 number.length ≤ Nat.pow 32 12 := Nat.pow_le_pow_right (by decide) hlen
  have hbits : Nat.pow 32 12 = 1152921504606846976 := by decide
  have hlt := hnumber.wordOf_lt
  unfold value ofWord
  split <;> simp only [Int.ofNat_eq_natCast] <;> omega

end Vlq

/-! ## Sums -/

theorem Totals.AreWords.value {t : Totals} (h : t.AreWords) (field : Field) :
    0 ≤ t.value field ∧ t.value field ≤ maxWord := by
  cases field with
  | generatedColumn => exact h.generatedColumn
  | sourceIndex => exact h.sourceIndex
  | originalLine => exact h.originalLine
  | originalColumn => exact h.originalColumn
  | nameIndex => exact h.nameIndex

/-- The fields to which the numbers of a segment are added.  The first number is added to the
generated column however many there are. -/
def addedFields : (count : Nat) → List Field
  | 4 => [.generatedColumn, .sourceIndex, .originalLine, .originalColumn]
  | 5 => [.generatedColumn, .sourceIndex, .originalLine, .originalColumn, .nameIndex]
  | _ => [.generatedColumn]

/-- The values of the fields that a segment has. -/
def Segment.fieldValues (s : Segment) : List Nat :=
  [Field.generatedColumn, .sourceIndex, .originalLine, .originalColumn, .nameIndex].filterMap
    s.value?

/-- The numbers that are added are there. -/
theorem number_lt_of_mem_addedFields {count : Nat} (hcount : 0 < count) {field : Field}
    (h : field ∈ addedFields count) : field.number < count := by
  unfold addedFields at h
  split at h
  all_goals simp only [List.mem_cons, List.not_mem_nil, or_false] at h
  · rcases h with rfl | rfl | rfl | rfl <;> decide
  · rcases h with rfl | rfl | rfl | rfl | rfl <;> decide
  · rw [h]
    exact hcount

namespace Totals

variable {t t' : Totals} {text : List Char}

/-- The operations of adding the numbers of a segment. -/
def sums (t : Totals) (values : List Int) : List Operation :=
  (addedFields values.length).map fun field => .sum field (t.value field) values

theorem operations_traceAdd (t : Totals) (values : List Int) :
    (t.traceAdd values).operations = t.sums values := by
  match values with
  | [] => rfl
  | [_] => rfl
  | [_, _] => rfl
  | [_, _, _] => rfl
  | [_, _, _, _] => rfl
  | [_, _, _, _, _] => rfl
  | _ :: _ :: _ :: _ :: _ :: _ :: rest =>
      have hcount : ¬ (rest.length + 6 = 4 ∨ rest.length + 6 = 5) := by omega
      simp only [traceAdd, List.length_cons, if_neg hcount]
      rfl

/-- The numbers of a segment are added if they can be read. -/
theorem operations_trace (t : Totals) (text : List Char) :
    (t.trace text).operations
      = Vlq.operationsFrom {} text ++ ((Vlq.decode text).toOption.map t.sums).getD [] := by
  rw [trace, Vlq.decode, ← Vlq.outcome_traceFrom]
  cases hvalues : (Vlq.traceFrom {} text).outcome with
  | error fault =>
      rw [operations_bind_of_error (e := .number fault) (by rw [outcome_mapError, hvalues]; rfl)]
      exact (List.append_nil _).symm
  | ok values =>
      rw [operations_bind_of_ok (a := values) (by rw [outcome_mapError, hvalues]; rfl),
        operations_bind_lift, operations_traceAdd]
      rfl

/-- Numbers of fifty-nine bits are added to words. -/
theorem AreWords.fits_sums (h : t.AreWords) {values : List Int} (hne : values ≠ [])
    (hvalues : ∀ v ∈ values, v.natAbs < 576460752303423488) :
    ∀ op ∈ t.sums values, op.Fits := by
  have hpow : Nat.pow 2 60 = 1152921504606846976 := rfl
  rw [sums, List.forall_mem_map]
  intro field hfield
  have hlt := number_lt_of_mem_addedFields (List.length_pos_iff.2 hne) hfield
  have hnumber := hvalues _ (List.getElem_mem hlt)
  obtain ⟨hlower, hupper⟩ := h.value field
  refine ⟨values[field.number], List.getElem?_eq_getElem hlt, ?_⟩
  rw [hpow]
  simp only [maxWord] at hupper
  omega

theorem AreWords.fits_trace (h : t.AreWords) (hne : text ≠ []) :
    ∀ op ∈ (t.trace text).operations, op.Fits := by
  rw [operations_trace, List.forall_mem_append]
  refine ⟨Vlq.fits_operationsFrom Vlq.Pending.isShort_initial text, ?_⟩
  cases hvalues : Vlq.decode text with
  | error fault => simp [Except.toOption]
  | ok values =>
      exact h.fits_sums (Vlq.ne_nil_of_decode hvalues hne) (Vlq.natAbs_lt_of_decode hvalues)

/-- The values of a segment are the totals that are computed for it. -/
theorem sums_deltas (t : Totals) (s : Segment) :
    (t.sums (t.deltas s)).filterMap Operation.sum? = s.fieldValues.map Int.ofNat := by
  have hcancel (a b : Int) : a + (b - a) = b := by omega
  obtain ⟨column, source⟩ := s
  cases source with
  | none => simp [sums, addedFields, deltas, after, Segment.fieldValues, Segment.value?, value,
      Field.number, Operation.sum?, Operation.result, hcancel]
  | some p =>
      cases hname : p.nameIndex with
      | none => simp [sums, addedFields, deltas, after, Segment.fieldValues, Segment.value?, value,
          Field.number, Operation.sum?, Operation.result, hcancel, hname]
      | some name => simp [sums, addedFields, deltas, after, Segment.fieldValues, Segment.value?,
          value, Field.number, Operation.sum?, Operation.result, hcancel, hname]

theorem sums_of_read {s : Segment} (h : t.read text = .ok (t', s)) :
    (t.trace text).operations.filterMap Operation.sum? = s.fieldValues.map Int.ofNat := by
  rw [operations_trace, (read_eq_ok_iff.1 h).1, List.filterMap_append, Vlq.sums_operationsFrom]
  exact sums_deltas t s

end Totals

/-! ## Lines and texts -/

theorem ne_nil_of_mem_segmentTexts {group text : List Char} (h : text ∈ segmentTexts group) :
    text ≠ [] := by
  simpa using (List.mem_filter.1 h).2

section Line

variable {t t' : Totals} {texts : List (List Char)}

/-- The totals are words before each segment of a line. -/
theorem fits_traceSegments (h : t.AreWords) (index : Nat) (hne : ∀ text ∈ texts, text ≠ []) :
    ∀ op ∈ (traceSegments t index texts).operations, op.Fits := by
  induction texts generalizing t index with
  | nil => simp [traceSegments]
  | cons text texts ih =>
      obtain ⟨hfirst, hrest⟩ := List.forall_mem_cons.1 hne
      rw [traceSegments]
      refine forall_mem_operations_bind (h.fits_trace hfirst) ?_
      rintro ⟨t₁, s⟩ hread
      rw [outcome_mapError, Totals.outcome_trace] at hread
      obtain ⟨-, rfl, -⟩ := Totals.read_eq_ok_iff.1 (mapError_eq_ok_iff.1 hread)
      refine forall_mem_operations_bind (ih (h.after s) (index + 1) hrest) ?_
      rintro ⟨t₂, segments⟩ -
      simp

theorem sums_of_decodeSegments {index : Nat} {segments : List Segment}
    (h : decodeSegments t index texts = .ok (t', segments)) :
    (traceSegments t index texts).operations.filterMap Operation.sum?
      = segments.flatMap fun s => s.fieldValues.map Int.ofNat := by
  induction texts generalizing t index segments with
  | nil =>
      cases h
      rfl
  | cons text texts ih =>
      obtain ⟨s, rest, rfl, hread, hrest⟩ := decodeSegments_cons_eq_ok_iff.1 h
      have hfirst : ((t.trace text).mapError (MappingsFault.mk index)).outcome = .ok (t.after s, s) := by
        rw [outcome_mapError, Totals.outcome_trace, hread]
        rfl
      rw [traceSegments, operations_bind_of_ok hfirst, operations_mapError, List.filterMap_append,
        Totals.sums_of_read hread, List.flatMap_cons, operations_bind_pure]
      exact congrArg (s.fieldValues.map Int.ofNat ++ ·) (ih hrest)

theorem fits_traceGroups (h : t.AreWords) (index : Nat) (groups : List (List Char)) :
    ∀ op ∈ (traceGroups t index groups).operations, op.Fits := by
  induction groups generalizing t index with
  | nil => simp [traceGroups]
  | cons group groups ih =>
      rw [traceGroups]
      have hne : ∀ text ∈ segmentTexts group, text ≠ [] := fun _ => ne_nil_of_mem_segmentTexts
      refine forall_mem_operations_bind (fits_traceSegments h index hne) ?_
      rintro ⟨t₁, segments⟩ hline
      rw [outcome_traceSegments] at hline
      obtain ⟨-, rfl, -⟩ := decodeSegments_eq_ok_iff.1 hline
      refine forall_mem_operations_bind (ih (h.foldl_after segments).nextLine _) ?_
      simp

theorem sums_of_decodeGroups {index : Nat} {groups : List (List Char)} {lines : Lines}
    (h : decodeGroups t index groups = .ok lines) :
    (traceGroups t index groups).operations.filterMap Operation.sum?
      = lines.flatten.flatMap fun s => s.fieldValues.map Int.ofNat := by
  induction groups generalizing t index lines with
  | nil =>
      cases h
      rfl
  | cons group groups ih =>
      obtain ⟨segments, rest, rfl, hline, hrest⟩ := decodeGroups_cons_eq_ok_iff.1 h
      rw [traceGroups, operations_bind_of_ok ((outcome_traceSegments ..).trans hline),
        List.filterMap_append, sums_of_decodeSegments hline, List.flatten_cons,
        List.flatMap_append, operations_bind_pure]
      exact congrArg (segments.flatMap _ ++ ·) (ih hrest)

end Line

/-- Whatever the text, each operation of reading it stays within its bounds, so its results are held
by words of 64 bits, and a segment with digits has a first number.  What is read are the results:
the numbers of a segment are those that are made, and the fields of the segments are the totals.  The
readers that make the operations come to what the readers come to, whatever the text. -/
theorem operations_fit (text : String) :
    (∀ op ∈ operations text, op.Fits ∧ ∀ n ∈ op.results, (Int64.ofInt n).toInt = n) ∧
      (∀ segment values, Vlq.decode segment = .ok values →
        (segment ≠ [] → values ≠ []) ∧
          (Vlq.operationsFrom {} segment).filterMap Operation.number? = values) ∧
      (∀ lines, decode text = .ok lines →
        (operations text).filterMap Operation.sum?
          = lines.flatten.flatMap fun s => s.fieldValues.map Int.ofNat) ∧
      (∀ segment, (Vlq.traceFrom {} segment).outcome = Vlq.decode segment) ∧
      (trace text).outcome = decode text := by
  refine ⟨fun op hop => ?_, fun segment values h => ?_, fun lines h => sums_of_decodeGroups h,
    Vlq.outcome_traceFrom {}, outcome_trace text⟩
  · have hfits := fits_traceGroups .initial 0 _ op hop
    exact ⟨hfits, hfits.toInt_ofInt⟩
  · exact ⟨Vlq.ne_nil_of_decode h, Vlq.numbers_of_decodeFrom h⟩

end BundleCoverage.SourceMap
