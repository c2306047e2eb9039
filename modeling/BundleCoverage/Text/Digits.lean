import BundleCoverage.Text.Search

/-!
# Digits

Reading the number, or the character, that some digits stand for.
-/

namespace BundleCoverage.Text

/-- The value of a digit of a base, up to sixteen. -/
def digitOf? (base : Nat) (c : Char) : Option Nat :=
  let d := if c.isDigit then c.toNat - 48
    else if 'a' ≤ c && c ≤ 'f' then c.toNat - 87
    else if 'A' ≤ c && c ≤ 'F' then c.toNat - 55
    else base
  if d < base then some d else none

/-- The number with some digits of a base, zero without digits. -/
def digitsIn? (base : Nat) (digits : List Char) : Option Nat :=
  digits.foldlM (fun n c => (digitOf? base c).map (base * n + ·)) 0

/-- The number with some digits of a base, of which there has to be one. -/
def digits? (base : Nat) (digits : List Char) : Option Nat :=
  if digits.isEmpty then none else digitsIn? base digits

/-- The number with some decimal digits, after a plus or none. -/
def unsigned? (text : List Char) : Option Nat := digits? 10 ((stripPrefix? ['+'] text).getD text)

/-- The character with a number in hexadecimal digits. -/
def hexChar? (digits : List Char) : Option Char :=
  (digits? 16 digits).bind fun n =>
    if n < 0xD800 || (0xDFFF < n && n < 0x110000) then some (Char.ofNat n) else none

/-- Letters and digits are in three runs. -/
theorem toNat_of_isAlphanum {c : Char} (h : c.isAlphanum) :
    48 ≤ c.toNat ∧ c.toNat ≤ 57 ∨ 65 ≤ c.toNat ∧ c.toNat ≤ 90 ∨ 97 ≤ c.toNat ∧ c.toNat ≤ 122 := by
  rcases Bool.or_eq_true_iff.1 h with halpha | hdigit
  · rcases Bool.or_eq_true_iff.1 halpha with hupper | hlower
    · have hbounds : c.val ≥ 'A'.val ∧ c.val ≤ 'Z'.val := of_decide_eq_true hupper
      exact .inr (.inl hbounds)
    · obtain ⟨hfrom, hto⟩ := Bool.and_eq_true_iff.1 hlower
      exact .inr (.inr ⟨of_decide_eq_true hfrom, of_decide_eq_true hto⟩)
  · obtain ⟨hfrom, hto⟩ := Bool.and_eq_true_iff.1 hdigit
    exact .inl ⟨of_decide_eq_true hfrom, of_decide_eq_true hto⟩

/-- A number is known by its decimals. -/
theorem toDigits_inj {m n : Nat} : Nat.toDigits 10 m = Nat.toDigits 10 n ↔ m = n := by
  refine ⟨fun h => ?_, fun h => h ▸ rfl⟩
  rw [← Nat.ofDigitChars_ten_toDigits (n := m), h, Nat.ofDigitChars_ten_toDigits]

end BundleCoverage.Text
