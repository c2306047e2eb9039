import BundleCoverage.Proofs.Numbers

/-!
# Numbers of sixty-four bits

A text of written numbers is read if each of them has at most twelve digits, and is refused as too
long otherwise (`decode_flatMap_encode_eq`).  Twelve digits hold sixty bits, one of them the sign
(`length_digits_le_iff`), so the numbers of sixty-four bits that are read are those whose magnitude
has at most fifty-nine, and one other (`length_encode_le_twelve_iff`).

The other is the smallest.  Its magnitude doubled does not fit into sixty-four bits, so it is written
as a negative zero and read as zero (`value_encode_word`).  So numbers are read back just if their
magnitudes have at most fifty-nine bits (`decode_encode_words`).
-/

namespace BundleCoverage.SourceMap.Vlq

open BundleCoverage Base64

/-! ## How many digits a number has -/

/-- A number has as many digits as its bits need, five a digit. -/
theorem length_digits_le_iff {w n : Nat} :
    (digits w).length ≤ n + 1 ↔ w < Nat.pow 32 (n + 1) := by
  constructor
  · intro hlen
    have hpow : Nat.pow 32 (digits w).length ≤ Nat.pow 32 (n + 1) :=
      Nat.pow_le_pow_right (by decide) hlen
    have hlt := (isNumber_digits w).wordOf_lt
    rw [wordOf_digits] at hlt
    exact Nat.lt_of_lt_of_le hlt hpow
  · exact length_digits_le

theorem word_lt (v : Int) : word v < 18446744073709551616 := by
  unfold word
  split <;> omega

/-- Every number is written with at least one and at most thirteen digits. -/
theorem length_encode (v : Int) : 1 ≤ (encode v).length ∧ (encode v).length ≤ 13 := by
  have hpow : 18446744073709551616 ≤ Nat.pow 32 (12 + 1) := by decide
  refine ⟨List.length_pos_iff.2 (isNumber_encode v).ne_nil, ?_⟩
  exact length_digits_le_iff.2 (Nat.lt_of_lt_of_le (word_lt v) hpow)

/-! ## Too many digits -/

/-- A number whose digits do not fit is refused, whatever follows. -/
theorem decodeFrom_of_long {number : List Char} (h : IsNumber number) {p : Pending}
    (hlong : 60 < p.shift + 5 * number.length) (rest : List Char) :
    decodeFrom p (number ++ rest) = .error .tooLong := by
  induction h generalizing p with
  | @last c d hc hd =>
      have hfull : 55 < p.shift := by
        simp only [List.length_singleton] at hlong
        omega
      simp only [List.singleton_append, decodeFrom, Pending.push, hc, if_pos hfull]
  | @more c d number hc hd hrest ih =>
      by_cases hfull : 55 < p.shift
      · simp only [List.cons_append, decodeFrom, Pending.push, hc, if_pos hfull]
      · have hpush := push_eq (p := p) hc (Nat.le_of_not_lt hfull)
        rw [if_neg (by omega)] at hpush
        simp only [List.cons_append, decodeFrom, hpush]
        simp only [List.length_cons] at hlong
        exact ih (by simp only; omega)

/-- Written numbers are read, whatever they then stand for, unless one has too many digits. -/
theorem decode_flatMap_encode_eq (values : List Int) :
    decode (values.flatMap encode)
      = if ∀ v ∈ values, (encode v).length ≤ 12 then
          .ok (values.map fun v => value (encode v))
        else .error .tooLong := by
  induction values with
  | nil => rfl
  | cons v values ih =>
      rw [List.flatMap_cons]
      by_cases hv : (encode v).length ≤ 12
      · rw [decode_append (isNumber_encode v) hv, ih]
        simp only [List.forall_mem_cons, hv, true_and]
        split <;> rfl
      · rw [decode, decodeFrom_of_long (isNumber_encode v) (by simp only; omega), if_neg]
        exact fun hall => hv (hall v (List.mem_cons_self ..))

/-! ## Numbers of sixty-four bits -/

/-- The smallest number of sixty-four bits is written as a negative zero. -/
theorem word_minValue : word Int64.minValue.toInt = 1 := by decide

theorem toInt_eq_minValue_iff (v : Int64) :
    v = Int64.minValue ↔ v.toInt = -9223372036854775808 := by
  rw [← Int64.toInt_inj, Int64.toInt_minValue]
  rfl

theorem value_encode_word (v : Int64) :
    value (encode v.toInt) = if v = Int64.minValue then 0 else v.toInt := by
  have hvalue : value (encode v.toInt) = ofWord (word v.toInt) :=
    congrArg ofWord (wordOf_digits (word v.toInt))
  rw [hvalue]
  split
  · next hv => rw [hv, word_minValue]; rfl
  · next hv =>
    have hlower := v.le_toInt
    have hupper := v.toInt_lt
    rw [toInt_eq_minValue_iff] at hv
    exact ofWord_word (by omega)

/-- Twelve digits are enough for a magnitude of fifty-nine bits, and for the smallest number. -/
theorem length_encode_le_twelve_iff (v : Int64) :
    (encode v.toInt).length ≤ 12 ↔
      v.toInt.natAbs < 576460752303423488 ∨ v = Int64.minValue := by
  have hpow : Nat.pow 32 (11 + 1) = 1152921504606846976 := by decide
  have hlower := v.le_toInt
  have hupper := v.toInt_lt
  rw [encode, length_digits_le_iff, hpow, toInt_eq_minValue_iff]
  unfold word
  split <;> omega

/-- Numbers of sixty-four bits that are written one after another are read back just if the
magnitude of each has at most fifty-nine.  Every such number has at least one and at most thirteen
digits. -/
theorem decode_encode_words (values : List Int64) :
    (decode ((values.map Int64.toInt).flatMap encode) = .ok (values.map Int64.toInt) ↔
        ∀ v ∈ values, v.toInt.natAbs < 576460752303423488) ∧
      ∀ v : Int64, 1 ≤ (encode v.toInt).length ∧ (encode v.toInt).length ≤ 13 ∧
        ∀ c ∈ encode v.toInt, (digitValue? c).isSome := by
  refine ⟨?_, fun v => ⟨(length_encode _).1, (length_encode _).2,
    fun c hc => (isNumber_encode _).isSome_digitValue? hc⟩⟩
  constructor
  · intro h v hv
    rw [decode_flatMap_encode_eq] at h
    split at h
    · next hshort =>
      rw [List.forall_mem_map] at hshort
      rw [Except.ok.injEq, List.map_map, List.map_inj_left] at h
      have hkept : value (encode v.toInt) = v.toInt := h v hv
      refine ((length_encode_le_twelve_iff v).1 (hshort v hv)).resolve_right fun hsmallest => ?_
      -- the smallest number is read as zero
      rw [value_encode_word, if_pos hsmallest, hsmallest] at hkept
      exact absurd hkept (by decide)
    · cases h
  · intro hall
    refine decode_flatMap_encode ?_
    rwa [List.forall_mem_map]

-- The smallest number is lost without a fault.
example : decode (encode Int64.minValue.toInt) = .ok [0] := by cbv

end BundleCoverage.SourceMap.Vlq
