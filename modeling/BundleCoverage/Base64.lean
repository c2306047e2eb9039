/-!
# Base 64

The sixty-four digits, and bytes written with them.  Three bytes are four digits; one or
two bytes at the end are two or three digits, filled up to four with equals signs.

`decode?` accepts only this form: the text is filled up, and the bits that a last digit
has to spare are zero.  `digitValue?_digitChar` says that digits are read as they are
written.
-/

namespace BundleCoverage.Base64

/-! ## Digits -/

/-- The sixty-four digits in order of value. -/
def alphabet : List Char :=
  "ABCDEFGHIJKLMNOPQRSTUVWXYZabcdefghijklmnopqrstuvwxyz0123456789+/".toList

/-- The digit of a value below 64. -/
def digitChar (d : Nat) : Char := alphabet.getD d 'A'

/-- The value of a digit. -/
def digitValue? (c : Char) : Option Nat :=
  let n := c.toNat
  if 65 ≤ n ∧ n ≤ 90 then some (n - 65)
  else if 97 ≤ n ∧ n ≤ 122 then some (n - 97 + 26)
  else if 48 ≤ n ∧ n ≤ 57 then some (n - 48 + 52)
  else if n = 43 then some 62
  else if n = 47 then some 63
  else none

theorem digitValue?_digitChar : ∀ d < 64, digitValue? (digitChar d) = some d := by decide +kernel

theorem digitValue?_lt {c : Char} {d : Nat} (h : digitValue? c = some d) : d < 64 := by
  unfold digitValue? at h
  grind

/-! ## Bytes -/

/-- The text of some bytes. -/
def encode : List UInt8 → List Char
  | [] => []
  | [a] => [digitChar (a.toNat / 4), digitChar (a.toNat % 4 * 16), '=', '=']
  | [a, b] =>
    [digitChar (a.toNat / 4), digitChar (a.toNat % 4 * 16 + b.toNat / 16),
      digitChar (b.toNat % 16 * 4), '=']
  | a :: b :: c :: rest =>
    digitChar (a.toNat / 4) :: digitChar (a.toNat % 4 * 16 + b.toNat / 16)
      :: digitChar (b.toNat % 16 * 4 + c.toNat / 64) :: digitChar (c.toNat % 64) :: encode rest

/-- The bytes of a text. -/
def decode? : List Char → Option (List UInt8)
  | [] => some []
  | [a, b, '=', '='] => do
    let x ← digitValue? a
    let y ← digitValue? b
    if y % 16 = 0 then some [.ofNat (x * 4 + y / 16)] else none
  | [a, b, c, '='] => do
    let x ← digitValue? a
    let y ← digitValue? b
    let z ← digitValue? c
    if z % 4 = 0 then some [.ofNat (x * 4 + y / 16), .ofNat (y % 16 * 16 + z / 4)] else none
  | a :: b :: c :: d :: rest => do
    let x ← digitValue? a
    let y ← digitValue? b
    let z ← digitValue? c
    let w ← digitValue? d
    let bytes ← decode? rest
    some (.ofNat (x * 4 + y / 16) :: .ofNat (y % 16 * 16 + z / 4) :: .ofNat (z % 4 * 64 + w)
      :: bytes)
  | _ => none

example : encode [77, 97] = ['T', 'W', 'E', '='] := by decide +kernel
example : decode? ['T', 'W', 'E', '='] = some [77, 97] := by decide +kernel
example : decode? ['T', 'W', 'F', '='] = none := by decide +kernel

end BundleCoverage.Base64
