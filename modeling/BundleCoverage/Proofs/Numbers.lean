import BundleCoverage.SourceMap.Vlq
import BundleCoverage.Text.Split

/-!
# Numbers and their digits

A text of numbers falls into the digits of each number (`numbers`), since a number ends with
the first digit after which no other follows.  `decode_eq_ok_iff` says that reading is this
and nothing else: it succeeds if every piece is a whole number of at most twelve digits, and
gives their values in order.

Writing gives the shortest digits.  So a number that was read is written back as it was, unless
it is a negative zero or ends in digits that add nothing (`encode_value_eq_iff`), and it never
gets longer (`length_encode_value_le`).
-/

namespace BundleCoverage.SourceMap.Vlq

open BundleCoverage Base64

/-! ## Digits -/

theorem digitChar_of_digitValue? {c : Char} {d : Nat} (h : digitValue? c = some d) :
    digitChar d = c := by
  have hascii : ∀ n < 128, (digitValue? (Char.ofNat n)).all (digitChar · = Char.ofNat n) := by
    decide +kernel
  have hc : c.toNat < 128 := by
    unfold digitValue? at h
    grind
  have hd := hascii c.toNat hc
  rw [Char.ofNat_toNat, h] at hd
  simpa using hd

/-- Whether a digit says that another one follows. -/
def goesOn (c : Char) : Bool := (digitValue? c).any (32 ≤ ·)

/-- The digits of each number of a text. -/
def numbers : List Char → List (List Char)
  | [] => []
  | c :: text => if goesOn c then Text.consFirst c (numbers text) else [c] :: numbers text

/-- The digits of one number: every digit but the last says that another one follows. -/
inductive IsNumber : List Char → Prop
  | last {c : Char} {d : Nat} (hc : digitValue? c = some d) (hd : d < 32) : IsNumber [c]
  | more {c : Char} {d : Nat} {number : List Char} (hc : digitValue? c = some d) (hd : 32 ≤ d)
      (hrest : IsNumber number) : IsNumber (c :: number)

/-- The sign bit and magnitude that some digits stand for. -/
def wordOf : List Char → Nat
  | [] => 0
  | c :: number => (digitValue? c).getD 0 % 32 + 32 * wordOf number

/-- The number that some digits stand for. -/
def value (number : List Char) : Int := ofWord (wordOf number)

namespace IsNumber

variable {number : List Char}

theorem ne_nil (h : IsNumber number) : number ≠ [] := by
  cases h with
  | last hc hd => exact List.cons_ne_nil _ _
  | more hc hd hrest => exact List.cons_ne_nil _ _

theorem isSome_digitValue? (h : IsNumber number) {c : Char} (hc : c ∈ number) :
    (digitValue? c).isSome := by
  induction h with
  | last hd hlt =>
      rw [List.mem_singleton.1 hc, hd]
      rfl
  | more hd hle hrest ih =>
      cases List.mem_cons.1 hc with
      | inl heq =>
          rw [heq, hd]
          rfl
      | inr hmem => exact ih hmem

theorem numbers_append (h : IsNumber number) (rest : List Char) :
    numbers (number ++ rest) = number :: numbers rest := by
  induction h with
  | @last c d hc hd =>
      have hends : goesOn c = false := by simpa [goesOn, hc] using hd
      rw [List.singleton_append, numbers, hends]
      rfl
  | @more c d number hc hd hrest ih =>
      have hgoes : goesOn c = true := by simpa [goesOn, hc] using hd
      rw [List.cons_append, numbers, if_pos hgoes, ih, Text.consFirst]

theorem wordOf_lt (h : IsNumber number) : wordOf number < Nat.pow 32 number.length := by
  induction h with
  | @last c d hc hd =>
      simp only [wordOf, hc, Option.getD_some, List.length_singleton]
      exact Nat.lt_of_lt_of_eq (by omega : _ < 32) rfl
  | @more c d number hc hd hrest ih =>
      have hpow : Nat.pow 32 (number.length + 1) = Nat.pow 32 number.length * 32 := rfl
      simp only [wordOf, hc, Option.getD_some, List.length_cons, hpow]
      omega

end IsNumber

/-! ## Reading -/

theorem push_eq {p : Pending} {c : Char} {d : Nat} (hc : digitValue? c = some d)
    (hshift : p.shift ≤ 55) :
    p.push c = .ok (if d < 32 then .done (ofWord (p.value + (d % 32) <<< p.shift))
      else .more ⟨p.value + (d % 32) <<< p.shift, p.shift + 5⟩) := by
  have hfits : ¬ 55 < p.shift := by omega
  simp only [Pending.push, hc, if_neg hfits]
  split
  · rfl
  · rfl

theorem digit_of_push {p : Pending} {c : Char} {progress : Progress}
    (h : p.push c = .ok progress) : ∃ d, digitValue? c = some d ∧ p.shift ≤ 55 := by
  unfold Pending.push at h
  split at h
  · cases h
  · next d hc =>
    split at h
    · cases h
    · next hshift => exact ⟨d, hc, Nat.le_of_not_lt hshift⟩

/-- The rest of a number is read to its end if its digits fit. -/
theorem decodeFrom_append {number : List Char} (h : IsNumber number) {p : Pending}
    (hfits : p.shift + 5 * number.length ≤ 60) (rest : List Char) :
    decodeFrom p (number ++ rest)
      = (decode rest).map (ofWord (p.value + wordOf number <<< p.shift) :: ·) := by
  induction h generalizing p with
  | @last c d hc hd =>
      simp only [List.length_singleton] at hfits
      have hpush := push_eq (p := p) hc (by omega)
      rw [if_pos hd] at hpush
      simp only [List.singleton_append, decodeFrom, hpush, wordOf, hc, Option.getD_some,
        Nat.mul_zero, Nat.add_zero]
      rfl
  | @more c d number hc hd hrest ih =>
      simp only [List.length_cons] at hfits
      have hpush := push_eq (p := p) hc (by omega)
      rw [if_neg (by omega)] at hpush
      -- the digits that follow stand five bits higher
      have hvalue : p.value + (d % 32) <<< p.shift + wordOf number <<< (p.shift + 5)
          = p.value + (d % 32 + 32 * wordOf number) <<< p.shift := by
        simp only [Nat.shiftLeft_eq, Nat.pow_add]
        grind
      simp only [List.cons_append, decodeFrom, hpush, wordOf, hc, Option.getD_some]
      rw [ih (by simp only; omega), hvalue]

theorem decode_append {number : List Char} (h : IsNumber number) (hlen : number.length ≤ 12)
    (rest : List Char) : decode (number ++ rest) = (decode rest).map (value number :: ·) := by
  rw [decode, decodeFrom_append h (by simp only; omega)]
  simp [value]

/-- What can be read starts with the rest of a number whose digits fit. -/
theorem exists_number_of_decodeFrom {p : Pending} {c : Char} {text : List Char}
    {values : List Int} (h : decodeFrom p (c :: text) = .ok values) :
    ∃ number rest, c :: text = number ++ rest ∧ IsNumber number ∧
      p.shift + 5 * number.length ≤ 60 := by
  induction text generalizing p c with
  | nil =>
      rw [decodeFrom] at h
      cases hpush : p.push c with
      | error fault => simp [hpush] at h
      | ok progress =>
          obtain ⟨d, hc, hshift⟩ := digit_of_push hpush
          rw [push_eq hc hshift] at h
          by_cases hd : d < 32
          · exact ⟨[c], [], rfl, .last hc hd, by simp; omega⟩
          · -- the text ends inside the number
            simp [hd, decodeFrom] at h
  | cons next text ih =>
      rw [decodeFrom] at h
      cases hpush : p.push c with
      | error fault => simp [hpush] at h
      | ok progress =>
          obtain ⟨d, hc, hshift⟩ := digit_of_push hpush
          rw [push_eq hc hshift] at h
          by_cases hd : d < 32
          · exact ⟨[c], next :: text, rfl, .last hc hd, by simp; omega⟩
          · simp only [if_neg hd] at h
            obtain ⟨number, rest, htext, hnumber, hfits⟩ := ih h
            refine ⟨c :: number, rest, by rw [htext, List.cons_append], .more hc (by omega) hnumber,
              ?_⟩
            simp only [List.length_cons] at hfits ⊢
            omega

theorem isNumber_of_mem_numbers {text : List Char} {values : List Int}
    (h : decode text = .ok values) :
    ∀ number ∈ numbers text, IsNumber number ∧ number.length ≤ 12 := by
  induction hlen : text.length using Nat.strongRecOn generalizing text values with
  | ind n ih =>
      cases text with
      | nil =>
          intro number hmem
          cases hmem
      | cons c tail =>
          obtain ⟨first, rest, htext, hfirst, hfits⟩ := exists_number_of_decodeFrom h
          have hshort : first.length ≤ 12 := by simp only at hfits; omega
          rw [htext, decode_append hfirst hshort] at h
          rw [htext, hfirst.numbers_append]
          cases hrest : decode rest with
          | error fault => simp [hrest, Except.map] at h
          | ok others =>
              have hless : rest.length < n := by
                have := congrArg List.length htext
                have := List.length_pos_iff.2 hfirst.ne_nil
                simp only [List.length_append] at *
                omega
              intro number hmem
              cases List.mem_cons.1 hmem with
              | inl heq => exact heq ▸ ⟨hfirst, hshort⟩
              | inr hmem => exact ih rest.length hless hrest rfl number hmem

theorem flatten_numbers (text : List Char) : (numbers text).flatten = text := by
  induction text with
  | nil => rfl
  | cons c text ih =>
      rw [numbers]
      split
      · cases hrest : numbers text with
        | nil => simpa [hrest, Text.consFirst] using ih
        | cons number rest => simpa [hrest, Text.consFirst] using ih
      · simp [ih]

theorem numbers_flatten {pieces : List (List Char)} (h : ∀ number ∈ pieces, IsNumber number) :
    numbers pieces.flatten = pieces := by
  induction pieces with
  | nil => rfl
  | cons number rest ih =>
      rw [List.flatten_cons, (h number (List.mem_cons_self ..)).numbers_append,
        ih fun n hn => h n (List.mem_cons_of_mem _ hn)]

theorem decode_flatten {pieces : List (List Char)}
    (h : ∀ number ∈ pieces, IsNumber number ∧ number.length ≤ 12) :
    decode pieces.flatten = .ok (pieces.map value) := by
  induction pieces with
  | nil => rfl
  | cons number rest ih =>
      obtain ⟨hnumber, hlen⟩ := h number (List.mem_cons_self ..)
      rw [List.flatten_cons, decode_append hnumber hlen,
        ih fun n hn => h n (List.mem_cons_of_mem _ hn)]
      rfl

/-- Reading succeeds if every piece is a whole number of at most twelve digits, and gives the
values of the pieces. -/
theorem decode_eq_ok_iff {text : List Char} {values : List Int} :
    decode text = .ok values ↔
      (∀ number ∈ numbers text, IsNumber number ∧ number.length ≤ 12) ∧
        values = (numbers text).map value := by
  have hread (h : ∀ number ∈ numbers text, IsNumber number ∧ number.length ≤ 12) :
      decode text = .ok ((numbers text).map value) := by
    have := decode_flatten h
    rwa [flatten_numbers] at this
  constructor
  · intro h
    have hpieces := isNumber_of_mem_numbers h
    rw [hread hpieces] at h
    exact ⟨hpieces, (Except.ok.inj h).symm⟩
  · rintro ⟨hpieces, rfl⟩
    exact hread hpieces

/-! ## Writing -/

theorem isNumber_digits (w : Nat) : IsNumber (digits w) := by
  induction w using digits.induct with
  | case1 w hw =>
      rw [digits, if_pos hw]
      exact .last (digitValue?_digitChar w (by omega)) hw
  | case2 w hw ih =>
      rw [digits, if_neg hw]
      exact .more (digitValue?_digitChar (32 + w % 32) (by omega)) (by omega) ih

theorem wordOf_digits (w : Nat) : wordOf (digits w) = w := by
  induction w using digits.induct with
  | case1 w hw =>
      rw [digits, if_pos hw]
      simp only [wordOf, digitValue?_digitChar w (by omega), Option.getD_some]
      omega
  | case2 w hw ih =>
      rw [digits, if_neg hw]
      simp only [wordOf, digitValue?_digitChar (32 + w % 32) (by omega), Option.getD_some, ih]
      omega

theorem digits_zero : digits 0 = ['A'] := by
  have hdigit : digitChar 0 = 'A' := digitChar_of_digitValue? (by decide)
  rw [digits, if_pos (by decide), hdigit]

theorem digits_one : digits 1 = ['B'] := by
  have hdigit : digitChar 1 = 'B' := digitChar_of_digitValue? (by decide)
  rw [digits, if_pos (by decide), hdigit]

theorem digits_ne_nil (w : Nat) : digits w ≠ [] := (isNumber_digits w).ne_nil

theorem length_digits_le {w n : Nat} (h : w < Nat.pow 32 (n + 1)) : (digits w).length ≤ n + 1 := by
  induction n generalizing w with
  | zero =>
      have hw : w < 32 := h
      rw [digits, if_pos hw]
      exact Nat.le_refl 1
  | succ n ih =>
      have hpow : Nat.pow 32 (n + 1 + 1) = Nat.pow 32 (n + 1) * 32 := rfl
      rw [digits]
      split
      · simp
      · have := ih (w := w / 32) (by omega)
        simp only [List.length_cons]
        omega

/-- The last digit of a number other than zero is no zero. -/
theorem getLast?_digits {w : Nat} (hw : w ≠ 0) : (digits w).getLast? ≠ some 'A' := by
  induction w using digits.induct with
  | case1 w hlt =>
      intro hlast
      rw [digits, if_pos hlt, List.getLast?_singleton] at hlast
      have hvalue := digitValue?_digitChar w (by omega)
      rw [Option.some.inj hlast] at hvalue
      exact hw (Option.some.inj hvalue).symm
  | case2 w hlt ih =>
      rw [digits, if_neg hlt, List.getLast?_cons_of_ne_nil (digits_ne_nil _)]
      exact ih (by omega)

/-- Digits that do not end in a zero are the shortest ones of their number. -/
theorem digits_wordOf {number : List Char} (h : IsNumber number)
    (hlast : number.getLast? ≠ some 'A') : wordOf number ≠ 0 ∧ digits (wordOf number) = number := by
  induction h with
  | @last c d hc hd =>
      have hdigit : digitChar d = c := digitChar_of_digitValue? hc
      have hword : wordOf [c] = d := by
        simp only [wordOf, hc, Option.getD_some]
        omega
      refine ⟨?_, by rw [hword, digits, if_pos hd, hdigit]⟩
      rintro hzero
      rw [hword] at hzero
      rw [hzero] at hdigit
      exact hlast (by rw [List.getLast?_singleton, ← hdigit]; rfl)
  | @more c d number hc hd hrest ih =>
      rw [List.getLast?_cons_of_ne_nil hrest.ne_nil] at hlast
      obtain ⟨hzero, hdigits⟩ := ih hlast
      have hlt := digitValue?_lt hc
      have hword : wordOf (c :: number) = d % 32 + 32 * wordOf number := by
        simp only [wordOf, hc, Option.getD_some]
      have hlow : 32 + (d % 32 + 32 * wordOf number) % 32 = d := by omega
      have hhigh : (d % 32 + 32 * wordOf number) / 32 = wordOf number := by omega
      rw [hword, digits, if_neg (by omega), hlow, hhigh, hdigits, digitChar_of_digitValue? hc]
      exact ⟨by omega, rfl⟩

theorem length_digits_wordOf_le {number : List Char} (h : IsNumber number) :
    (digits (wordOf number)).length ≤ number.length := by
  have hpos := List.length_pos_iff.2 h.ne_nil
  obtain ⟨n, hn⟩ : ∃ n, number.length = n + 1 := ⟨number.length - 1, by omega⟩
  rw [hn]
  exact length_digits_le (hn ▸ h.wordOf_lt)

theorem ofWord_word {v : Int} (h : v.natAbs < 9223372036854775808) : ofWord (word v) = v := by
  unfold ofWord word
  split
  · split at *
    · simp only [Int.ofNat_eq_natCast]; omega
    · omega
  · split at *
    · omega
    · simp only [Int.ofNat_eq_natCast]; omega

/-- Sign bit and magnitude are kept, but zero has no sign. -/
theorem word_ofWord {w : Nat} (h : w < 18446744073709551616) :
    word (ofWord w) = if w = 1 then 0 else w := by
  unfold ofWord word
  split
  · simp only [Int.ofNat_eq_natCast]; split <;> split <;> omega
  · simp only [Int.ofNat_eq_natCast]; split <;> split <;> omega

theorem encode_value {number : List Char} (h : IsNumber number) (hlen : number.length ≤ 12) :
    encode (value number) = digits (if wordOf number = 1 then 0 else wordOf number) := by
  have hpow : Nat.pow 32 number.length ≤ Nat.pow 32 12 := Nat.pow_le_pow_right (by decide) hlen
  have hbound : Nat.pow 32 12 < 18446744073709551616 := by decide
  have hlt := h.wordOf_lt
  rw [encode, value, word_ofWord (by omega)]

/-! ## Shortest digits -/

/-- Whether the digits of a number are the shortest ones and no negative zero: one digit other
than `B`, or several of which the last is not `A`. -/
def IsShortest (number : List Char) : Prop :=
  match number with
  | [c] => c ≠ 'B'
  | number => number.getLast? ≠ some 'A'

instance : DecidablePred IsShortest := fun number =>
  match number with
  | [] => inferInstanceAs (Decidable (_ ≠ _))
  | [_] => inferInstanceAs (Decidable (_ ≠ _))
  | _ :: _ :: _ => inferInstanceAs (Decidable (_ ≠ _))

theorem digits_wordOf_singleton {c : Char} (h : IsNumber [c]) : digits (wordOf [c]) = [c] := by
  by_cases hc : c = 'A'
  · subst hc
    exact digits_zero
  · exact (digits_wordOf h (by simpa using hc)).2

theorem digits_wordOf_eq_iff {c d : Char} {number : List Char}
    (h : IsNumber (c :: d :: number)) :
    digits (wordOf (c :: d :: number)) = c :: d :: number ↔ IsShortest (c :: d :: number) := by
  constructor
  · intro hdigits hlast
    refine getLast?_digits ?_ (hdigits ▸ hlast)
    intro hzero
    -- zero has one digit only
    rw [hzero, digits_zero] at hdigits
    cases hdigits
  · intro hshort
    exact (digits_wordOf h hshort).2

/-- A number that was read is written back as it was if its digits are the shortest ones. -/
theorem encode_value_eq_iff {number : List Char} (h : IsNumber number)
    (hlen : number.length ≤ 12) : encode (value number) = number ↔ IsShortest number := by
  rw [encode_value h hlen]
  cases number with
  | nil => exact absurd rfl h.ne_nil
  | cons c rest =>
      cases rest with
      | nil =>
          have hdigits := digits_wordOf_singleton h
          by_cases hw : wordOf [c] = 1
          · -- a negative zero is written as zero
            rw [hw, digits_one] at hdigits
            cases hdigits
            rw [if_pos hw, digits_zero]
            decide
          · rw [if_neg hw]
            refine iff_of_true hdigits ?_
            rintro rfl
            exact hw (by decide)
      | cons d rest =>
          by_cases hw : wordOf (c :: d :: rest) = 1
          · have hshort := digits_wordOf_eq_iff h
            rw [hw, digits_one] at hshort
            rw [if_pos hw, digits_zero]
            refine iff_of_false (by simp) fun hs => ?_
            simpa using hshort.2 hs
          · rw [if_neg hw]
            exact digits_wordOf_eq_iff h

theorem length_encode_value_le {number : List Char} (h : IsNumber number)
    (hlen : number.length ≤ 12) : (encode (value number)).length ≤ number.length := by
  rw [encode_value h hlen]
  split
  · rw [digits_zero]
    exact List.length_pos_iff.2 h.ne_nil
  · exact length_digits_wordOf_le h

/-! ## Texts of numbers -/

theorem isNumber_encode (v : Int) : IsNumber (encode v) := isNumber_digits (word v)

theorem numbers_flatMap_encode (values : List Int) :
    numbers (values.flatMap encode) = values.map encode := by
  rw [List.flatMap_def]
  refine numbers_flatten fun number hmem => ?_
  obtain ⟨v, -, rfl⟩ := List.mem_map.1 hmem
  exact isNumber_encode v

/-- Written numbers of at most fifty-nine bits are read back. -/
theorem decode_flatMap_encode {values : List Int}
    (h : ∀ v ∈ values, v.natAbs < 576460752303423488) :
    decode (values.flatMap encode) = .ok values := by
  rw [decode_eq_ok_iff, numbers_flatMap_encode]
  constructor
  · intro number hmem
    obtain ⟨v, hv, rfl⟩ := List.mem_map.1 hmem
    have hbound := h v hv
    have hpow : Nat.pow 32 12 = 1152921504606846976 := by decide
    refine ⟨isNumber_encode v, length_digits_le (n := 11) ?_⟩
    rw [hpow, word]
    split <;> omega
  · rw [List.map_map]
    have hvalue : values.map (value ∘ encode) = values.map id := by
      refine List.map_congr_left fun v hv => ?_
      have hbound := h v hv
      exact (congrArg ofWord (wordOf_digits (word v))).trans (ofWord_word (by omega))
    rw [hvalue, List.map_id]

/-- A text that was read is written back as it was if all its numbers have the shortest digits. -/
theorem flatMap_encode_eq_iff {text : List Char} {values : List Int}
    (h : decode text = .ok values) :
    values.flatMap encode = text ↔ ∀ number ∈ numbers text, IsShortest number := by
  obtain ⟨hnumbers, hvalues⟩ := decode_eq_ok_iff.1 h
  have hpieces : values.flatMap encode = text ↔ values.map encode = numbers text := by
    constructor
    · intro heq
      rw [← numbers_flatMap_encode, heq]
    · intro heq
      rw [List.flatMap_def, heq, flatten_numbers]
  have hkept : (numbers text).map (encode ∘ value) = numbers text
      ↔ ∀ number ∈ numbers text, encode (value number) = number := by
    have := List.map_inj_left (f := encode ∘ value) (g := id) (l := numbers text)
    rwa [List.map_id] at this
  rw [hpieces, hvalues, List.map_map, hkept]
  constructor
  · intro hall number hmem
    obtain ⟨hnumber, hlen⟩ := hnumbers number hmem
    exact (encode_value_eq_iff hnumber hlen).1 (hall number hmem)
  · intro hall number hmem
    obtain ⟨hnumber, hlen⟩ := hnumbers number hmem
    exact (encode_value_eq_iff hnumber hlen).2 (hall number hmem)

theorem length_encode_values_le {pieces : List (List Char)}
    (h : ∀ number ∈ pieces, IsNumber number ∧ number.length ≤ 12) :
    ((pieces.map value).flatMap encode).length ≤ pieces.flatten.length := by
  induction pieces with
  | nil => exact Nat.le_refl 0
  | cons number pieces ih =>
      obtain ⟨hnumber, hlen⟩ := h number (List.mem_cons_self ..)
      have hfirst := length_encode_value_le hnumber hlen
      have hrest := ih fun n hn => h n (List.mem_cons_of_mem _ hn)
      simp only [List.map_cons, List.flatMap_cons, List.flatten_cons, List.length_append]
      omega

theorem length_flatMap_encode_le {text : List Char} {values : List Int}
    (h : decode text = .ok values) : (values.flatMap encode).length ≤ text.length := by
  obtain ⟨hnumbers, hvalues⟩ := decode_eq_ok_iff.1 h
  have hle := length_encode_values_le hnumbers
  rwa [← hvalues, flatten_numbers] at hle

end BundleCoverage.SourceMap.Vlq
