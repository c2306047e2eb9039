import BundleCoverage.Proofs.Outcomes
import BundleCoverage.Url.Percent

/-!
# Escaped segments

A segment is escaped before it goes into a URL and decoded before it is used as a name.  Escaping
leaves what a segment is decoded to as it was (`unescape_escape`), because escapes that are there
are kept.

A text in ASCII is decoded from one byte for each character only (`bytes_of_strict?`).
-/

namespace BundleCoverage

/-! ## Bytes of texts in ASCII -/

namespace Text.Utf8

theorem toNat_ofNat_of_isValidChar {m : Nat} (h : m.isValidChar) : (Char.ofNat m).toNat = m :=
  congrArg Char.toNat (dif_pos h)

theorem toNat_ofNat_of_le {m : Nat} (h : 128 ≤ m) :
    (Char.ofNat m).toNat = 0 ∨ 128 ≤ (Char.ofNat m).toNat := by
  by_cases hvalid : m.isValidChar
  · right
    rwa [toNat_ofNat_of_isValidChar hvalid]
  · left
    exact congrArg Char.toNat (dif_neg hvalid)

/-- A byte outside ASCII starts no character of ASCII. -/
theorem le_of_decodeUnits {a : UInt8} (ha : 128 ≤ a.toNat) {rest : List UInt8} {c : Char}
    {units : List (Option Char)} (h : decodeUnits (a :: rest) = some c :: units) :
    c.toNat = 0 ∨ 128 ≤ c.toNat := by
  unfold decodeUnits at h
  simp only [within, low, Bool.and_eq_true, Bool.or_eq_true, decide_eq_true_eq] at h
  -- the range of the second byte depends on the first
  generalize hlo : (if a.toNat = 224 then 160 else 128) = lo at h
  generalize hhi : (if a.toNat = 237 then 159 else 191) = hi at h
  generalize hlo' : (if a.toNat = 240 then 144 else 128) = lo' at h
  generalize hhi' : (if a.toNat = 244 then 143 else 191) = hi' at h
  split at h
  · omega
  split at h
  · cases h
  split at h
  · cases h
  next b rest =>
  split at h
  -- two bytes
  · split at h
    · cases h
      exact toNat_ofNat_of_le (by omega)
    · cases h
  split at h
  -- three bytes
  · split at h
    · split at h
      · cases h
      · split at h
        · cases h
          refine toNat_ofNat_of_le ?_
          split at hlo <;> split at hhi <;> omega
        · cases h
    · cases h
  -- four bytes
  · split at h
    · split at h
      · cases h
      · split at h
        · split at h
          · cases h
          · split at h
            · cases h
              refine toNat_ofNat_of_le ?_
              split at hlo' <;> split at hhi' <;> omega
            · cases h
        · cases h
    · cases h

theorem exists_of_decodeUnits {bytes : List UInt8} {c : Char} {units : List (Option Char)}
    (h : decodeUnits bytes = some c :: units) (hpos : 0 < c.toNat) (hlt : c.toNat < 128) :
    ∃ rest, bytes = UInt8.ofNat c.toNat :: rest ∧ decodeUnits rest = units := by
  cases bytes with
  | nil => cases h
  | cons a rest =>
      by_cases ha : a.toNat < 128
      · unfold decodeUnits at h
        simp only [if_pos ha] at h
        cases h
        rw [toNat_ofNat_of_isValidChar (.inl (by omega)), UInt8.ofNat_toNat]
        exact ⟨rest, rfl, rfl⟩
      · have := le_of_decodeUnits (by omega) h
        omega

theorem decodeUnits_ne_nil (a : UInt8) (rest : List UInt8) : decodeUnits (a :: rest) ≠ [] := by
  unfold decodeUnits
  dsimp only
  repeat' split
  all_goals exact List.cons_ne_nil _ _

theorem bytes_of_strict? {bytes : List UInt8} {text : String} (h : strict? bytes = some text)
    (hascii : ∀ c ∈ text.toList, 0 < c.toNat ∧ c.toNat < 128) :
    bytes = text.toList.map fun c => UInt8.ofNat c.toNat := by
  obtain ⟨chars, hchars, rfl⟩ := Option.map_eq_some_iff.1 h
  rw [mapM_eq_some_iff] at hchars
  rw [String.toList_ofList] at hascii ⊢
  clear h
  induction chars generalizing bytes with
  | nil =>
      rw [List.forall₂_nil_right_iff] at hchars
      cases bytes with
      | nil => rfl
      | cons a rest => exact absurd hchars (decodeUnits_ne_nil a rest)
  | cons c chars ih =>
      obtain ⟨hc, hrest⟩ := List.forall_mem_cons.1 hascii
      obtain ⟨u, units, hu, hunits, hbytes⟩ := List.forall₂_cons_right_iff.1 hchars
      cases hu
      obtain ⟨rest, rfl, hdecode⟩ := exists_of_decodeUnits hbytes hc.1 hc.2
      rw [← hdecode] at hunits
      rw [List.map_cons, ← ih hunits hrest]

theorem toList_loop (bytes : ByteArray) (i : Nat) (before : List UInt8) :
    ByteArray.toList.loop bytes i before = before.reverse ++ bytes.data.toList.drop i := by
  fun_induction ByteArray.toList.loop bytes i before with
  | case1 i before hlt ih =>
      have hlen : i < bytes.data.toList.length := by simpa using hlt
      have hget : bytes.get! i = bytes.data.toList[i] := by
        have hsize : i < bytes.data.size := hlt
        show bytes.data[i]! = _
        rw [getElem!_pos bytes.data i hsize, Array.getElem_toList]
      rw [ih, hget, List.reverse_cons, List.append_assoc, List.singleton_append,
        ← List.drop_eq_getElem_cons]
  | case2 i before hle =>
      rw [List.drop_eq_nil_of_le (by simpa using Nat.le_of_not_lt hle), List.append_nil]

theorem encode_singleton (c : Char) : encode (String.singleton c) = String.utf8EncodeChar c := by
  rw [encode, ByteArray.toList, toList_loop]
  show (String.singleton c).toByteArray.data.toList.drop 0 = _
  rw [String.toByteArray_singleton, List.utf8Encode_singleton, List.toList_data_toByteArray,
    List.drop_zero]

end Text.Utf8

namespace Url

open Text

theorem bytesOf_ne_nil (c : Char) : bytesOf c ≠ [] := by
  rw [bytesOf, Utf8.encode_singleton]
  exact String.utf8EncodeChar_ne_nil

/-- A byte of ASCII stands for a character of its own. -/
theorem eq_of_bytesOf {c : Char} {b : UInt8} {bytes : List UInt8} (h : bytesOf c = b :: bytes)
    (hb : b.toNat < 128) : c.toNat = b.toNat ∧ bytes = [] := by
  rw [bytesOf, Utf8.encode_singleton] at h
  unfold String.utf8EncodeChar at h
  dsimp only at h
  have hle : ∀ n, n < 256 → (UInt8.ofNat n).toNat = n := fun n hn => UInt8.toNat_ofNat_of_lt' hn
  split at h
  · cases h
    exact ⟨(hle c.val.toNat (by omega)).symm, rfl⟩
  · split at h
    · cases h
      rw [hle _ (by omega)] at hb
      omega
    · split at h
      · cases h
        rw [hle _ (by omega)] at hb
        omega
      · cases h
        rw [hle _ (by omega)] at hb
        omega

/-! ## Escapes -/

/-- Whether two hexadecimal digits stand in front of a text. -/
def startsWithByte : List Char → Bool
  | a :: b :: _ => (digitOf? 16 a).isSome && (digitOf? 16 b).isSome
  | _ => false

theorem unescape_cons_of_ne {c : Char} (hc : c ≠ '%') (text : List Char) :
    unescape (c :: text) = bytesOf c ++ unescape text := by
  rw [unescape]
  intro a b rest h
  exact absurd h hc

theorem unescape_percent {text : List Char} (h : startsWithByte text = false) :
    unescape ('%' :: text) = bytesOf '%' ++ unescape text := by
  match text with
  | [] => rfl
  | [a] => rfl
  | a :: b :: text =>
      rw [unescape]
      split
      · next x y ha hb => simp [startsWithByte, ha, hb] at h
      · rfl

theorem unescape_byte {a b : Char} {x y : Nat} (ha : digitOf? 16 a = some x)
    (hb : digitOf? 16 b = some y) (text : List Char) :
    unescape ('%' :: a :: b :: text) = UInt8.ofNat (16 * x + y) :: unescape text := by
  rw [unescape, ha, hb]

/-- A character stands for the byte it escapes or for its own bytes. -/
theorem unescape_cons_cases (c : Char) (text : List Char) :
    (∃ a b rest x y, c = '%' ∧ text = a :: b :: rest ∧ digitOf? 16 a = some x ∧
      digitOf? 16 b = some y ∧ unescape (c :: text) = UInt8.ofNat (16 * x + y) :: unescape rest) ∨
    unescape (c :: text) = bytesOf c ++ unescape text := by
  by_cases hc : c = '%'
  · subst hc
    cases hbyte : startsWithByte text with
    | false => exact .inr (unescape_percent hbyte)
    | true =>
        match text with
        | [] => cases hbyte
        | [a] => cases hbyte
        | a :: b :: rest =>
            obtain ⟨ha, hb⟩ := Bool.and_eq_true_iff.1 hbyte
            obtain ⟨x, hx⟩ := Option.isSome_iff_exists.1 ha
            obtain ⟨y, hy⟩ := Option.isSome_iff_exists.1 hb
            exact .inl ⟨a, b, rest, x, y, rfl, rfl, hx, hy, unescape_byte hx hy rest⟩
  · exact .inr (unescape_cons_of_ne hc text)

theorem unescape_ne_nil (c : Char) (text : List Char) : unescape (c :: text) ≠ [] := by
  rcases unescape_cons_cases c text with ⟨a, b, rest, x, y, -, -, -, -, h⟩ | h
  · rw [h]
    exact List.cons_ne_nil _ _
  · rw [h]
    exact List.append_ne_nil_of_left_ne_nil (bytesOf_ne_nil c) _

theorem unescape_escapeByte (b : UInt8) (text : List Char) :
    unescape (escapeByte b ++ text) = b :: unescape text := by
  have hdigit : ∀ n < 16, digitOf? 16 (Nat.digitChar n).toUpper = some n := by decide
  have hb := b.toNat_lt
  have hsum : 16 * (b.toNat / 16) + b.toNat % 16 = b.toNat := by omega
  have hbyte := unescape_byte (hdigit (b.toNat / 16) (by omega)) (hdigit (b.toNat % 16) (by omega))
    text
  rw [hsum, UInt8.ofNat_toNat] at hbyte
  exact hbyte

theorem unescape_escapeBytes (bytes : List UInt8) (text : List Char) :
    unescape (bytes.flatMap escapeByte ++ text) = bytes ++ unescape text := by
  induction bytes with
  | nil => rfl
  | cons b bytes ih =>
      rw [List.flatMap_cons, List.append_assoc, unescape_escapeByte, ih, List.cons_append]

section Escape

variable {needed : Char → Bool}

/-- Whether a class of characters has neither the percent sign nor a hexadecimal digit. -/
def KeepsEscapes (needed : Char → Bool) : Prop :=
  ∀ c, c = '%' ∨ (digitOf? 16 c).isSome → c.toNat < 128 ∧ needed c = false

/-- A character in a text that is escaped. -/
def escapeChar (needed : Char → Bool) (c : Char) : List Char :=
  if c.toNat < 0x80 && !needed c then [c] else (bytesOf c).flatMap escapeByte

theorem escape_cons (c : Char) (text : List Char) :
    escape needed (c :: text) = escapeChar needed c ++ escape needed text := by
  rw [escape, List.flatMap_cons]
  rfl

theorem escapeChar_of_keeps (h : KeepsEscapes needed) {c : Char}
    (hc : c = '%' ∨ (digitOf? 16 c).isSome) : escapeChar needed c = [c] := by
  obtain ⟨hlt, hkept⟩ := h c hc
  simp [escapeChar, hlt, hkept]

theorem escapeChar_cases (needed : Char → Bool) (c : Char) :
    escapeChar needed c = [c] ∨ ∃ rest, escapeChar needed c = '%' :: rest := by
  unfold escapeChar
  split
  · exact .inl rfl
  · cases h : bytesOf c with
    | nil => exact absurd h (bytesOf_ne_nil c)
    | cons b bytes => exact .inr ⟨_, rfl⟩

theorem startsWithByte_percent (text : List Char) : startsWithByte ('%' :: text) = false := by
  cases text with
  | nil => rfl
  | cons b text => rfl

theorem startsWithByte_second_percent (a : Char) (text : List Char) :
    startsWithByte (a :: '%' :: text) = false := by
  rw [startsWithByte, Bool.and_eq_false_iff]
  exact .inr rfl

/-- No escape is completed by another one. -/
theorem startsWithByte_escape {text : List Char} (h : startsWithByte text = false) :
    startsWithByte (escape needed text) = false := by
  cases text with
  | nil => rfl
  | cons a text =>
      rw [escape_cons]
      rcases escapeChar_cases needed a with ha | ⟨rest, ha⟩
      · rw [ha]
        cases text with
        | nil => rfl
        | cons b text =>
            rw [escape_cons]
            rcases escapeChar_cases needed b with hb | ⟨rest, hb⟩
            · rw [hb]
              exact h
            · rw [hb]
              exact startsWithByte_second_percent a _
      · rw [ha]
        exact startsWithByte_percent _

/-- Escaping keeps what a text is decoded to, as the escapes in it are kept. -/
theorem unescape_escape (h : KeepsEscapes needed) (text : List Char) :
    unescape (escape needed text) = unescape text := by
  have hpercent : escapeChar needed '%' = ['%'] := escapeChar_of_keeps h (.inl rfl)
  fun_induction unescape text with
  | case1 a b text x y hb ha ih =>
      have hkept : escape needed ('%' :: a :: b :: text) = '%' :: a :: b :: escape needed text := by
        rw [escape_cons, escape_cons, escape_cons, hpercent,
          escapeChar_of_keeps h (.inr (by rw [ha]; rfl)),
          escapeChar_of_keeps h (.inr (by rw [hb]; rfl))]
        rfl
      rw [hkept, unescape_byte ha hb, ih]
  | case2 a b text hnone ih =>
      have hbyte : startsWithByte (a :: b :: text) = false := by
        rw [Bool.eq_false_iff, startsWithByte, ne_eq, Bool.and_eq_true, Option.isSome_iff_exists,
          Option.isSome_iff_exists]
        rintro ⟨⟨x, hx⟩, y, hy⟩
        exact hnone x y hx hy
      rw [escape_cons, hpercent, List.singleton_append,
        unescape_percent (startsWithByte_escape hbyte), ih]
  | case3 c text hc ih =>
      rw [escape_cons]
      by_cases hpercent' : c = '%'
      · subst hpercent'
        have hbyte : startsWithByte text = false := by
          match text with
          | [] => rfl
          | [a] => rfl
          | a :: b :: text => exact absurd rfl (hc a b text rfl)
        rw [hpercent, List.singleton_append, unescape_percent (startsWithByte_escape hbyte), ih]
      · unfold escapeChar
        split
        · rw [List.singleton_append, unescape_cons_of_ne hpercent', ih]
        · rw [unescape_escapeBytes, ih]
  | case4 => rfl

end Escape

/-! ## Digits -/

theorem lt_of_isSome_digitOf? {c : Char} (h : (digitOf? 16 c).isSome) : c.toNat < 128 := by
  by_contra hge
  have hbound : ∀ d : Char, d.toNat < 128 → ¬ c ≤ d := fun d hd hle => by
    have : c.toNat ≤ d.toNat := hle
    omega
  have hdigit : c.isDigit = false := by
    rw [Bool.eq_false_iff, Char.isDigit, ne_eq, Bool.and_eq_true, not_and]
    exact fun _ hle => hbound '9' (by decide) (of_decide_eq_true hle)
  simp [digitOf?, hdigit, hbound 'f' (by decide), hbound 'F' (by decide)] at h

theorem forall_of_isSome_digitOf? {p : Char → Prop}
    (h : ∀ n < 128, (digitOf? 16 (Char.ofNat n)).isSome → p (Char.ofNat n)) {c : Char}
    (hc : (digitOf? 16 c).isSome) : p c := by
  have hofNat := h c.toNat (lt_of_isSome_digitOf? hc)
  rw [Char.ofNat_toNat] at hofNat
  exact hofNat hc

theorem keepsEscapes_needsPathEscape : KeepsEscapes needsPathEscape := by
  rintro c (rfl | hc)
  · decide
  · have hkept := forall_of_isSome_digitOf? (p := fun c => needsPathEscape c = false) (by decide) hc
    exact ⟨lt_of_isSome_digitOf? hc, hkept⟩

theorem eq_of_digitOf? {c : Char} {d : Nat} (h : digitOf? 16 c = some d) :
    d < 16 ∧ (d = 2 → c = '2') ∧ (d = 14 → c = 'e' ∨ c = 'E') := by
  have hall := forall_of_isSome_digitOf?
    (p := fun c => ∀ d ∈ digitOf? 16 c, d < 16 ∧ (d = 2 → c = '2') ∧ (d = 14 → c = 'e' ∨ c = 'E'))
    (by decide) (Option.isSome_of_eq_some h)
  exact hall d h

/-- The digits of an escaped point. -/
theorem digits_of_point {a b : Char} {x y : Nat} (ha : digitOf? 16 a = some x)
    (hb : digitOf? 16 b = some y) (h : UInt8.ofNat (16 * x + y) = 46) :
    a = '2' ∧ (b = 'e' ∨ b = 'E') := by
  obtain ⟨hx, htwo, -⟩ := eq_of_digitOf? ha
  obtain ⟨hy, -, hfourteen⟩ := eq_of_digitOf? hb
  have hlt : 16 * x + y < 256 := by omega
  have hsum : 16 * x + y = 46 := by
    rw [← UInt8.toNat_ofNat_of_lt' hlt, h]
    rfl
  exact ⟨htwo (by omega), hfourteen (by omega)⟩

end Url

end BundleCoverage
