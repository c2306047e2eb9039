import BundleCoverage.Base64
import Mathlib.Data.Bool.AllAny
import Mathlib.Data.List.Infix

/-!
# Bytes in base 64

Bytes written in base 64 are read back (`Base64.decode?_encode`), and their text is made of digits
and equals signs (`Base64.forall_mem_encode`).  A digit in front of the equals signs has bits to spare,
which are zero, so only some digits can stand there (`Base64.not_infix_encode`).
-/

namespace BundleCoverage.Base64

/-! ## Digits -/

theorem digitChar_mem (value : Nat) : digitChar value ∈ alphabet := by
  rw [digitChar, List.getD_eq_getElem?_getD]
  cases h : alphabet[value]? with
  | none => decide +kernel
  | some c => exact List.mem_of_getElem? h

theorem digitChar_ne_pad (value : Nat) : digitChar value ≠ '=' := by
  have hpad : ∀ c ∈ alphabet, c ≠ '=' := List.all_iff_forall_prop.1 (by decide +kernel)
  exact hpad _ (digitChar_mem value)

theorem eq_of_digitChar_eq {a b : Nat} (ha : a < 64) (hb : b < 64)
    (h : digitChar a = digitChar b) : a = b := by
  have := digitValue?_digitChar a ha
  rw [h, digitValue?_digitChar b hb] at this
  exact (Option.some.inj this).symm

/-! ## Reading what was written -/

theorem ofNat_eq_of_eq_toNat {n : Nat} {byte : UInt8} (h : n = byte.toNat) :
    UInt8.ofNat n = byte := by
  rw [h, UInt8.ofNat_toNat]

/-- Bytes written in base 64 are read back. -/
theorem decode?_encode (bytes : List UInt8) : decode? (encode bytes) = some bytes := by
  induction bytes using encode.induct with
  | case1 => rfl
  | case2 a =>
      have ha := a.toNat_lt
      have hfirst : UInt8.ofNat (a.toNat / 4 * 4 + a.toNat % 4 * 16 / 16) = a :=
        ofNat_eq_of_eq_toNat (by omega)
      rw [encode, decode?, digitValue?_digitChar _ (by omega), digitValue?_digitChar _ (by omega)]
      simp only [Option.bind_eq_bind, Option.bind_some]
      rw [if_pos (by omega), hfirst]
  | case3 a b =>
      have ha := a.toNat_lt
      have hb := b.toNat_lt
      have hfirst : UInt8.ofNat (a.toNat / 4 * 4 + (a.toNat % 4 * 16 + b.toNat / 16) / 16) = a :=
        ofNat_eq_of_eq_toNat (by omega)
      have hsecond : UInt8.ofNat ((a.toNat % 4 * 16 + b.toNat / 16) % 16 * 16
          + b.toNat % 16 * 4 / 4) = b :=
        ofNat_eq_of_eq_toNat (by omega)
      rw [encode, decode?, digitValue?_digitChar _ (by omega), digitValue?_digitChar _ (by omega),
        digitValue?_digitChar _ (by omega)]
      · simp only [Option.bind_eq_bind, Option.bind_some]
        rw [if_pos (by omega), hfirst, hsecond]
      · exact fun hpad => digitChar_ne_pad _ hpad
  | case4 a b c rest ih =>
      have ha := a.toNat_lt
      have hb := b.toNat_lt
      have hc := c.toNat_lt
      have hfirst : UInt8.ofNat (a.toNat / 4 * 4 + (a.toNat % 4 * 16 + b.toNat / 16) / 16) = a :=
        ofNat_eq_of_eq_toNat (by omega)
      have hsecond : UInt8.ofNat ((a.toNat % 4 * 16 + b.toNat / 16) % 16 * 16
          + (b.toNat % 16 * 4 + c.toNat / 64) / 4) = b :=
        ofNat_eq_of_eq_toNat (by omega)
      have hthird : UInt8.ofNat ((b.toNat % 16 * 4 + c.toNat / 64) % 4 * 64 + c.toNat % 64) = c :=
        ofNat_eq_of_eq_toNat (by omega)
      rw [encode, decode?, ih, digitValue?_digitChar _ (by omega),
        digitValue?_digitChar _ (by omega), digitValue?_digitChar _ (by omega),
        digitValue?_digitChar _ (by omega)]
      · simp only [Option.bind_eq_bind, Option.bind_some]
        rw [hfirst, hsecond, hthird]
      · exact fun _ hpad => absurd hpad (digitChar_ne_pad _)
      · exact fun hpad => absurd hpad (digitChar_ne_pad _)

/-! ## The text of bytes -/

/-- Bytes are written with digits and equals signs. -/
theorem forall_mem_encode (bytes : List UInt8) : ∀ c ∈ encode bytes, c ∈ alphabet ∨ c = '=' := by
  induction bytes using encode.induct with
  | case1 => simp [encode]
  | case2 a => simp [encode, digitChar_mem]
  | case3 a b => simp [encode, digitChar_mem]
  | case4 a b c rest ih => simpa [encode, digitChar_mem] using ih

theorem head?_encode_ne_pad (bytes : List UInt8) : (encode bytes).head? ≠ some '=' := by
  cases bytes using encode.fun_cases with
  | case1 => simp [encode]
  | case2 a => simp [encode, digitChar_ne_pad]
  | case3 a b => simp [encode, digitChar_ne_pad]
  | case4 a b c rest => simp [encode, digitChar_ne_pad]

theorem infix_pair_cons {a b c : Char} {text : List Char} :
    [a, b] <:+: c :: text ↔ (a = c ∧ text.head? = some b) ∨ [a, b] <:+: text := by
  rw [List.infix_cons_iff, List.cons_prefix_cons]
  cases text with
  | nil => simp
  | cons d text => simp [List.cons_prefix_cons, eq_comm]

/-- The digit in front of an equals sign has bits to spare, and these are zero. -/
theorem not_infix_encode {value : Nat} (hvalue : value < 64) (hspare : value % 4 ≠ 0)
    (bytes : List UInt8) : ¬ [digitChar value, '='] <:+: encode bytes := by
  induction bytes using encode.induct with
  | case1 => simp [encode]
  | case2 a =>
      have hlast : digitChar value ≠ digitChar (a.toNat % 4 * 16) := by
        intro h
        have := eq_of_digitChar_eq hvalue (by omega) h
        omega
      simp [encode, infix_pair_cons, digitChar_ne_pad, hlast]
  | case3 a b =>
      have hlast : digitChar value ≠ digitChar (b.toNat % 16 * 4) := by
        intro h
        have := eq_of_digitChar_eq hvalue (by omega) h
        omega
      simp [encode, infix_pair_cons, digitChar_ne_pad, hlast]
  | case4 a b c rest ih =>
      simp [encode, infix_pair_cons, digitChar_ne_pad, head?_encode_ne_pad, ih]

end BundleCoverage.Base64
