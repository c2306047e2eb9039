import BundleCoverage.Proofs.Escapes

/-!
# Bytes of texts

A text that is written as bytes is read back as it was (`decodeUnits_encode`): the bytes of each
character are one character again, and there is no mark among them.
-/

namespace BundleCoverage.Text.Utf8

theorem encode_eq (text : String) : encode text = text.toList.flatMap String.utf8EncodeChar := by
  rw [encode, ByteArray.toList, toList_loop]
  show text.toByteArray.data.toList.drop 0 = _
  rw [← String.utf8Encode_toList, List.utf8Encode, List.toList_data_toByteArray, List.drop_zero]

/-! ## Characters of one to four bytes -/

section Lengths

variable {a b c d : UInt8} (rest : List UInt8)

theorem decodeUnits_one (ha : a.toNat < 0x80) :
    decodeUnits (a :: rest) = some (Char.ofNat a.toNat) :: decodeUnits rest := by
  rw [decodeUnits.eq_def]
  simp [ha]

theorem decodeUnits_two (ha : 0xC2 ≤ a.toNat) (ha' : a.toNat < 0xE0)
    (hb : within 0x80 0xBF b = true) :
    decodeUnits (a :: b :: rest)
      = some (Char.ofNat (a.toNat % 32 * 64 + low b)) :: decodeUnits rest := by
  have h₁ : ¬a.toNat < 0x80 := by omega
  have h₂ : ¬a.toNat < 0xC2 := by omega
  have h₃ : ¬0xF4 < a.toNat := by omega
  rw [decodeUnits.eq_def]
  simp [h₁, h₂, h₃, ha', hb]

theorem decodeUnits_three (ha : 0xE0 ≤ a.toNat) (ha' : a.toNat < 0xF0)
    (hb : within (if a.toNat = 0xE0 then 0xA0 else 0x80)
      (if a.toNat = 0xED then 0x9F else 0xBF) b = true)
    (hc : within 0x80 0xBF c = true) :
    decodeUnits (a :: b :: c :: rest)
      = some (Char.ofNat ((a.toNat % 16 * 64 + low b) * 64 + low c)) :: decodeUnits rest := by
  have h₁ : ¬a.toNat < 0x80 := by omega
  have h₂ : ¬a.toNat < 0xC2 := by omega
  have h₃ : ¬0xF4 < a.toNat := by omega
  have h₄ : ¬a.toNat < 0xE0 := by omega
  rw [decodeUnits.eq_def]
  simp [h₁, h₂, h₃, h₄, ha', hb, hc]

theorem decodeUnits_four (ha : 0xF0 ≤ a.toNat) (ha' : a.toNat ≤ 0xF4)
    (hb : within (if a.toNat = 0xF0 then 0x90 else 0x80)
      (if a.toNat = 0xF4 then 0x8F else 0xBF) b = true)
    (hc : within 0x80 0xBF c = true) (hd : within 0x80 0xBF d = true) :
    decodeUnits (a :: b :: c :: d :: rest)
      = some (Char.ofNat (((a.toNat % 8 * 64 + low b) * 64 + low c) * 64 + low d))
        :: decodeUnits rest := by
  have h₁ : ¬a.toNat < 0x80 := by omega
  have h₂ : ¬a.toNat < 0xC2 := by omega
  have h₃ : ¬0xF4 < a.toNat := by omega
  have h₄ : ¬a.toNat < 0xE0 := by omega
  have h₅ : ¬a.toNat < 0xF0 := by omega
  rw [decodeUnits.eq_def]
  simp [h₁, h₂, h₃, h₄, h₅, hb, hc, hd]

end Lengths

theorem toNat_ofNat_of_lt {n : Nat} (h : n < 256) : (UInt8.ofNat n).toNat = n :=
  UInt8.toNat_ofNat_of_lt' h

theorem within_iff {lo hi : Nat} {b : UInt8} :
    within lo hi b = true ↔ lo ≤ b.toNat ∧ b.toNat ≤ hi := by
  simp [within]

theorem decodeUnits_utf8EncodeChar (c : Char) (rest : List UInt8) :
    decodeUnits (String.utf8EncodeChar c ++ rest) = some c :: decodeUnits rest := by
  have hchar : Char.ofNat c.val.toNat = c := Char.ofNat_toNat c
  have hvalid : c.val.toNat < 0xD800 ∨ 0xDFFF < c.val.toNat ∧ c.val.toNat < 0x110000 := c.valid
  unfold String.utf8EncodeChar
  dsimp only
  generalize c.val.toNat = n at hchar hvalid
  rw [← hchar]
  -- a continuation byte carries six bits
  have hnext (m : Nat) : (UInt8.ofNat (m % 0x40 + 0x80)).toNat = m % 0x40 + 0x80 :=
    toNat_ofNat_of_lt (by omega)
  have hlow (m : Nat) : low (UInt8.ofNat (m % 0x40 + 0x80)) = m % 0x40 := by
    rw [low, hnext]
    omega
  have hwithin (m : Nat) : within 0x80 0xBF (UInt8.ofNat (m % 0x40 + 0x80)) = true := by
    rw [within_iff, hnext]
    omega
  split
  · have hfirst : (UInt8.ofNat n).toNat = n := toNat_ofNat_of_lt (by omega)
    rw [List.singleton_append, decodeUnits_one rest (by omega), hfirst]
  split
  · have hfirst : (UInt8.ofNat (n / 64 % 0x20 + 0xC0)).toNat = n / 64 % 0x20 + 0xC0 :=
      toNat_ofNat_of_lt (by omega)
    rw [List.cons_append, List.singleton_append,
      decodeUnits_two rest (by omega) (by omega) (hwithin n), hfirst, hlow]
    congr 3
    omega
  split
  · have hfirst : (UInt8.ofNat (n / 4096 % 0x10 + 0xE0)).toNat = n / 4096 % 0x10 + 0xE0 :=
      toNat_ofNat_of_lt (by omega)
    have hsecond : within (if n / 4096 % 0x10 + 0xE0 = 0xE0 then 0xA0 else 0x80)
        (if n / 4096 % 0x10 + 0xE0 = 0xED then 0x9F else 0xBF)
        (UInt8.ofNat (n / 64 % 0x40 + 0x80)) = true := by
      rw [within_iff, hnext]
      split <;> split <;> omega
    rw [← hfirst] at hsecond
    rw [List.cons_append, List.cons_append, List.singleton_append,
      decodeUnits_three rest (by omega) (by omega) hsecond (hwithin n), hfirst, hlow, hlow]
    congr 3
    omega
  · have hfirst : (UInt8.ofNat (n / 262144 % 0x08 + 0xF0)).toNat = n / 262144 % 0x08 + 0xF0 :=
      toNat_ofNat_of_lt (by omega)
    have hsecond : within (if n / 262144 % 0x08 + 0xF0 = 0xF0 then 0x90 else 0x80)
        (if n / 262144 % 0x08 + 0xF0 = 0xF4 then 0x8F else 0xBF)
        (UInt8.ofNat (n / 4096 % 0x40 + 0x80)) = true := by
      rw [within_iff, hnext]
      split <;> split <;> omega
    rw [← hfirst] at hsecond
    rw [List.cons_append, List.cons_append, List.cons_append, List.singleton_append,
      decodeUnits_four rest (by omega) (by omega) hsecond (hwithin (n / 64)) (hwithin n), hfirst,
      hlow, hlow, hlow]
    congr 3
    omega

theorem decodeUnits_encode (text : String) : decodeUnits (encode text) = text.toList.map some := by
  rw [encode_eq]
  induction text.toList with
  | nil => simp [decodeUnits]
  | cons c chars ih =>
      rw [List.flatMap_cons, decodeUnits_utf8EncodeChar, ih, List.map_cons]

end BundleCoverage.Text.Utf8
