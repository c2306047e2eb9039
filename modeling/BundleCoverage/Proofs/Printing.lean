import BundleCoverage.Json.Parse
import BundleCoverage.Json.Print
import BundleCoverage.Proofs.Bytes

/-!
# Printed values are read back

A value that is printed is read back as it was, on one line (`parse?_compact`, also from bytes) and
over several (`parse?_pretty`), unless there is a literal in it that stands for no integer or a text
that cannot be read (`Json.Plain`).

The reader takes a value off the front of an input and leaves the rest (`Json.IsText`).  What
follows a value in a printed text is a comma, a closing bracket, white space or nothing
(`Json.Ends`), so a number stops there.  The two ways to print differ in the white space between the
parts of a value, which the reader passes over, so both have one proof for each kind of value.
-/

namespace BundleCoverage.Json

/-- A value whose numbers are integers and whose texts can be read. -/
inductive Plain : Json → Prop where
  | null : Plain .null
  | bool (b : Bool) : Plain (.bool b)
  | int (n : Int) : Plain (.int n)
  | str (s : String) : Plain (.str s)
  | arr {items : List Json} : (∀ item ∈ items, Plain item) → Plain (.arr items)
  | obj {members : List (String × Json)} : (∀ m ∈ members, Plain m.2) → Plain (.obj members)

/-- White space. -/
def IsSpacing (text : List Char) : Prop := ∀ c ∈ text, isSpace (some c) = true

/-- An input that cannot continue a value. -/
def Ends (rest : Input) : Prop :=
  ∀ u ∈ rest.head?, u = some ',' ∨ u = some ']' ∨ u = some '\x7d' ∨ isSpace u = true

/-! ## Strings -/

theorem hexValue4?_control : ∀ n < 0x20,
    hexValue4? '0' '0' (Nat.digitChar (n / 16)) (Nat.digitChar (n % 16)) = some n := by
  decide

theorem pieces_escapedChar (done : List Piece) (c : Char) (input : Input) :
    pieces done ((escapedChar c).map some ++ input) = pieces (.char c :: done) input := by
  unfold escapedChar
  split
  · next h => subst h; simp [pieces, escape?]
  split
  · next h => subst h; simp [pieces, escape?]
  split
  · next h =>
    have hc : c = Char.ofNat 0x8 := by rw [← h, Char.ofNat_toNat]
    subst hc
    rfl
  split
  · next h =>
    have hc : c = Char.ofNat 0xC := by rw [← h, Char.ofNat_toNat]
    subst hc
    rfl
  split
  · next h => subst h; rfl
  split
  · next h => subst h; rfl
  split
  · next h => subst h; rfl
  split
  · next h =>
    have hunit : Piece.ofUnit c.toNat = .char c := by
      have h₁ : ¬(0xD800 ≤ c.toNat ∧ c.toNat < 0xDC00) := by omega
      have h₂ : ¬(0xDC00 ≤ c.toNat ∧ c.toNat < 0xE000) := by omega
      rw [Piece.ofUnit, if_neg h₁, if_neg h₂, Char.ofNat_toNat]
    simp [pieces, hexValue4?_control c.toNat h, hunit]
  · next hquote hslash _ _ _ _ _ hcontrol =>
    show pieces done (some c :: input) = _
    rw [pieces]
    · exact if_neg hcontrol
    all_goals simp_all

theorem pieces_literal (done : List Piece) (chars : List Char) (input : Input) :
    pieces done ((chars.flatMap escapedChar).map some ++ some '"' :: input)
      = some ((chars.map Piece.char).reverse ++ done, input) := by
  induction chars generalizing done with
  | nil => rfl
  | cons c chars ih =>
      rw [List.flatMap_cons, List.map_append, List.append_assoc, pieces_escapedChar, ih]
      simp

theorem characters?_map (done chars : List Char) :
    characters? done (chars.map Piece.char) = some (chars.reverse ++ done) := by
  induction chars generalizing done with
  | nil => rfl
  | cons c chars ih =>
      show characters? (c :: done) (chars.map Piece.char) = _
      rw [ih, List.reverse_cons, List.append_assoc, List.singleton_append]

theorem stringAfterQuote_literal (text : String) (input : Input) :
    stringAfterQuote ((text.toList.flatMap escapedChar).map some ++ some '"' :: input)
      = some (some text, input) := by
  have hchars : characters? [] (text.toList.map Piece.char).reverse = some text.toList := by
    rw [← List.map_reverse, characters?_map, List.reverse_reverse, List.append_nil]
  rw [stringAfterQuote, pieces_literal, List.append_nil, Option.map_some]
  simp [hchars]

/-! ## Numbers -/

theorem digitsOf_append {digits : List Char} (hdigits : ∀ c ∈ digits, c.isDigit = true)
    {rest : Input} (hrest : ∀ u ∈ rest.head?, u.any Char.isDigit = false) :
    digitsOf (digits.map some ++ rest) = (digits, rest) := by
  have hall : ∀ u ∈ digits.map some, (u.any Char.isDigit) = true := by
    intro u hu
    obtain ⟨c, hc, rfl⟩ := List.mem_map.1 hu
    exact hdigits c hc
  have htake : rest.takeWhile (fun u => u.any Char.isDigit) = [] := by
    cases rest with
    | nil => rfl
    | cons u rest => rw [List.takeWhile_cons_of_neg (by simp [hrest u rfl])]
  have hdrop : rest.dropWhile (fun u => u.any Char.isDigit) = rest := by
    cases rest with
    | nil => rfl
    | cons u rest => rw [List.dropWhile_cons_of_neg (by simp [hrest u rfl])]
  unfold digitsOf
  dsimp only
  rw [List.takeWhile_append_of_pos hall, List.dropWhile_append_of_pos hall, htake, hdrop]
  simp

theorem head?_toDigits {n : Nat} (hn : 0 < n) : (Nat.toDigits 10 n).head? ≠ some '0' := by
  induction n using Nat.strongRecOn with
  | ind n ih =>
      rw [Nat.toDigits_eq_if (by decide)]
      split
      · simp only [List.head?_cons, ne_eq, Option.some.injEq, Nat.digitChar_eq_zero]
        omega
      · rw [List.head?_append_of_ne_nil _ Nat.toDigits_ne_nil]
        exact ih (n / 10) (by omega) (by omega)

theorem digitsValue_toDigits (n : Nat) : digitsValue (Nat.toDigits 10 n) = n :=
  Nat.ofDigitChars_ten_toDigits

/-- What an input starts with that cannot continue a value. -/
theorem Ends.cases {rest : Input} (h : Ends rest) :
    rest = [] ∨ ∃ c ∈ [',', ']', '\x7d', ' ', '\t', '\n', '\r'], ∃ input, rest = some c :: input := by
  cases rest with
  | nil => exact .inl rfl
  | cons u rest =>
      refine .inr ?_
      rcases h u rfl with rfl | rfl | rfl | hspace
      · exact ⟨',', by simp, rest, rfl⟩
      · exact ⟨']', by simp, rest, rfl⟩
      · exact ⟨'\x7d', by simp, rest, rfl⟩
      · cases u with
        | none => cases hspace
        | some c =>
            simp only [isSpace, Bool.or_eq_true, decide_eq_true_eq] at hspace
            refine ⟨c, ?_, rest, rfl⟩
            rcases hspace with ((rfl | rfl) | rfl) | rfl <;> simp

theorem Ends.fraction? {rest : Input} (h : Ends rest) : fraction? rest = some ([], rest) := by
  rcases h.cases with rfl | ⟨c, hc, input, rfl⟩
  · rfl
  · revert c
    simp [Json.fraction?]

theorem Ends.exponent? {rest : Input} (h : Ends rest) : exponent? rest = some ([], rest) := by
  rcases h.cases with rfl | ⟨c, hc, input, rfl⟩
  · rfl
  · revert c
    simp [Json.exponent?]

theorem Ends.any_isDigit {rest : Input} (h : Ends rest) :
    ∀ u ∈ rest.head?, u.any Char.isDigit = false := by
  rcases h.cases with rfl | ⟨c, hc, input, rfl⟩
  · intro u hu
    cases hu
  · rintro _ ⟨⟩
    simp only [List.mem_cons, List.not_mem_nil, or_false] at hc
    rcases hc with rfl | rfl | rfl | rfl | rfl | rfl | rfl <;> rfl

theorem number?_toDigits (negative : Bool) {n : Nat} (hn : negative = true → 0 < n) {rest : Input}
    (hrest : Ends rest) :
    number? negative ((Nat.toDigits 10 n).map some ++ rest)
      = some (.int (if negative then -(n : Int) else n), rest) := by
  have hdigits : digitsOf ((Nat.toDigits 10 n).map some ++ rest) = (Nat.toDigits 10 n, rest) :=
    digitsOf_append (fun c hc => Nat.isDigit_of_mem_toDigits (by decide) (by decide) hc)
      hrest.any_isDigit
  have hnone : (Nat.toDigits 10 n).isEmpty = false :=
    List.isEmpty_eq_false_iff.2 Nat.toDigits_ne_nil
  have hzero : (decide (1 < (Nat.toDigits 10 n).length) && (Nat.toDigits 10 n).head? == some '0')
      = false := by
    cases n with
    | zero => rfl
    | succ n => simp [head?_toDigits (Nat.succ_pos n)]
  have hsign : (negative && n == 0) = false := by
    cases negative with
    | false => rfl
    | true => simp [Nat.ne_of_gt (hn rfl)]
  rw [number?, hdigits]
  simp [hnone, hzero, hrest.fraction?, hrest.exponent?, digitsValue_toDigits, hsign]

/-! ## White space -/

theorem Ends.nil : Ends [] := by
  intro u hu
  cases hu

theorem Ends.comma (input : Input) : Ends (some ',' :: input) := by
  rintro _ ⟨⟩
  exact .inl rfl

theorem Ends.bracket (input : Input) : Ends (some ']' :: input) := by
  rintro _ ⟨⟩
  exact .inr (.inl rfl)

theorem Ends.brace (input : Input) : Ends (some '\x7d' :: input) := by
  rintro _ ⟨⟩
  exact .inr (.inr (.inl rfl))

theorem Ends.spacing {gap : List Char} (hgap : IsSpacing gap) {input : Input} (h : Ends input) :
    Ends (gap.map some ++ input) := by
  cases gap with
  | nil => exact h
  | cons c gap =>
      rintro _ ⟨⟩
      exact .inr (.inr (.inr (hgap c (List.mem_cons_self ..))))

theorem IsSpacing.nil : IsSpacing [] := by
  intro c hc
  cases hc

theorem skipSpace_cons {u : Option Char} (hu : isSpace u = false) (input : Input) :
    skipSpace (u :: input) = u :: input := by
  simp [skipSpace, hu]

section Spacing

variable {gap : List Char} (hgap : IsSpacing gap)

include hgap

theorem skipSpace_append (input : Input) : skipSpace (gap.map some ++ input) = skipSpace input := by
  refine List.dropWhile_append_of_pos fun u hu => ?_
  obtain ⟨c, hc, rfl⟩ := List.mem_map.1 hu
  exact hgap c hc

theorem value?_append (fuel : Nat) (input : Input) :
    value? fuel (gap.map some ++ input) = value? fuel input := by
  cases fuel with
  | zero => rfl
  | succ fuel => rw [value?, value?, skipSpace_append hgap]

theorem items?_append (fuel : Nat) (done : List Json) (input : Input) :
    items? fuel done (gap.map some ++ input) = items? fuel done input := by
  cases fuel with
  | zero => rfl
  | succ fuel => rw [items?, items?, value?_append hgap]

theorem members?_append (fuel : Nat) (done : List (Option String × Json)) (input : Input) :
    members? fuel done (gap.map some ++ input) = members? fuel done input := by
  cases fuel with
  | zero => rfl
  | succ fuel => rw [members?, members?, skipSpace_append hgap]

end Spacing

/-! ## Values -/

/-- A text of a value.  It is taken off the front of an input, and cannot be taken for the end of
the array that the value is in. -/
structure IsText (text : List Char) (v : Json) : Prop where
  opens : ∃ c rest, text = c :: rest ∧ isSpace (some c) = false ∧ c ≠ ']'
  read : ∀ fuel rest, text.length < fuel → Ends rest →
    value? fuel (text.map some ++ rest) = some (v, rest)

theorem isText_null : IsText "null".toList .null where
  opens := ⟨'n', _, rfl, rfl, by decide⟩
  read fuel rest hfuel _ := by
    cases fuel with
    | zero => cases hfuel
    | succ fuel => rfl

theorem isText_bool (b : Bool) : IsText (if b then "true" else "false").toList (.bool b) where
  opens := by
    cases b with
    | false => exact ⟨'f', _, rfl, rfl, by decide⟩
    | true => exact ⟨'t', _, rfl, rfl, by decide⟩
  read fuel rest hfuel _ := by
    cases fuel with
    | zero => cases hfuel
    | succ fuel => cases b <;> rfl

theorem toList_literal (s : String) :
    (literal s).toList = '"' :: s.toList.flatMap escapedChar ++ ['"'] := String.toList_ofList

theorem isText_str (s : String) : IsText (literal s).toList (.str s) where
  opens := ⟨'"', _, toList_literal s, rfl, by decide⟩
  read fuel rest hfuel _ := by
    cases fuel with
    | zero => cases hfuel
    | succ fuel =>
        have hinput : (literal s).toList.map some ++ rest
            = some '"' :: ((s.toList.flatMap escapedChar).map some ++ some '"' :: rest) := by
          simp [toList_literal]
        rw [hinput, value?, skipSpace_cons rfl]
        simp [stringAfterQuote_literal]

theorem isSpace_digit {c : Char} (hc : c.isDigit = true) : isSpace (some c) = false := by
  simp only [isSpace, Bool.or_eq_false_iff, decide_eq_false_iff_not]
  refine ⟨⟨⟨?_, ?_⟩, ?_⟩, ?_⟩ <;> rintro rfl <;> cases hc

theorem value?_digit (fuel : Nat) {c : Char} (hc : c.isDigit = true) (input : Input) :
    value? (fuel + 1) (some c :: input) = number? false (some c :: input) := by
  rw [value?, skipSpace_cons (isSpace_digit hc)]
  split <;> first | rfl | (next h => cases h; cases hc)

theorem exists_digit (n : Nat) :
    ∃ d digits, Nat.toDigits 10 n = d :: digits ∧ d.isDigit = true := by
  obtain ⟨d, digits, hdigits⟩ :=
    List.exists_cons_of_ne_nil (Nat.toDigits_ne_nil (n := n) (b := 10))
  have hd : d ∈ Nat.toDigits 10 n := by
    rw [hdigits]
    exact List.mem_cons_self ..
  exact ⟨d, digits, hdigits, Nat.isDigit_of_mem_toDigits (by decide) (by decide) hd⟩

theorem toList_ofNat (n : Nat) : (toString (Int.ofNat n)).toList = Nat.toDigits 10 n :=
  Nat.toList_repr

theorem toList_negSucc (n : Nat) :
    (toString (Int.negSucc n)).toList = '-' :: Nat.toDigits 10 (n + 1) := by
  show ("-" ++ Nat.repr (n + 1)).toList = _
  rw [String.toList_append, Nat.toList_repr]
  rfl

theorem isText_int (n : Int) : IsText (toString n).toList (.int n) where
  opens := by
    cases n with
    | ofNat n =>
        obtain ⟨d, digits, hdigits, hd⟩ := exists_digit n
        refine ⟨d, digits, hdigits ▸ toList_ofNat n, isSpace_digit hd, ?_⟩
        rintro rfl
        cases hd
    | negSucc n => exact ⟨'-', _, toList_negSucc n, rfl, by decide⟩
  read fuel rest hfuel hrest := by
    cases fuel with
    | zero => cases hfuel
    | succ fuel =>
        cases n with
        | ofNat n =>
            have hnumber := number?_toDigits false (n := n) (by simp) hrest
            obtain ⟨d, digits, hdigits, hd⟩ := exists_digit n
            rw [hdigits, List.map_cons, List.cons_append] at hnumber
            rw [toList_ofNat, hdigits, List.map_cons, List.cons_append, value?_digit fuel hd,
              hnumber]
            rfl
        | negSucc n =>
            rw [toList_negSucc, List.map_cons, List.cons_append, value?, skipSpace_cons rfl]
            exact number?_toDigits true (fun _ => Nat.succ_pos n) hrest

/-! ## Arrays -/

theorem separated_cons (gap first next : List Char) (rest : List (List Char)) :
    (',' :: gap).intercalate (first :: next :: rest)
      = first ++ ',' :: (gap ++ (',' :: gap).intercalate (next :: rest)) := by
  simp [List.intercalate_cons_cons]

variable {gap last : List Char} {texts : List (List Char)}

theorem items?_intercalate {items : List Json} (hgap : IsSpacing gap) (hlast : IsSpacing last)
    (hitems : List.Forall₂ IsText texts items) (hne : items ≠ []) (fuel : Nat) (done : List Json)
    (input : Input) (hfuel : ((',' :: gap).intercalate texts).length + 1 < fuel) :
    items? fuel done
        (((',' :: gap).intercalate texts).map some ++ (last.map some ++ some ']' :: input))
      = some (done.reverse ++ items, input) := by
  induction hitems generalizing fuel done with
  | nil => exact absurd rfl hne
  | @cons text item texts items htext hitems ih =>
      cases fuel with
      | zero => cases hfuel
      | succ fuel =>
          cases hitems with
          | nil =>
              rw [List.intercalate_singleton] at hfuel ⊢
              rw [items?, htext.read fuel _ (by omega) (.spacing hlast (.bracket input))]
              simp [skipSpace_append hlast, skipSpace_cons, isSpace]
          | cons hnext hitems =>
              rw [separated_cons] at hfuel ⊢
              rw [List.length_append, List.length_cons, List.length_append] at hfuel
              have htail := ih (List.cons_ne_nil _ _) fuel (item :: done) (by omega)
              rw [List.map_append, List.map_cons, List.map_append, List.append_assoc,
                List.cons_append, List.append_assoc, items?, htext.read fuel _ (by omega) (.comma _)]
              simp [skipSpace_cons (u := some ',') rfl, items?_append hgap, htail]

theorem value?_bracket (fuel : Nat) {u : Option Char} (hspace : isSpace u = false)
    (hu : u ≠ some ']') (hgap : IsSpacing gap) (input : Input) :
    value? (fuel + 1) (some '[' :: (gap.map some ++ u :: input))
      = (items? fuel [] (u :: input)).map fun (items, input) => (.arr items, input) := by
  rw [value?, skipSpace_cons rfl]
  simp only [skipSpace_append hgap, skipSpace_cons hspace]
  split
  · next h =>
    cases h
    exact absurd rfl hu
  · rfl

theorem exists_intercalate_cons (gap : List Char) (c : Char) (first : List Char)
    (rest : List (List Char)) : ∃ text, gap.intercalate ((c :: first) :: rest) = c :: text := by
  cases rest with
  | nil => exact ⟨first, List.intercalate_singleton⟩
  | cons next rest => exact ⟨_, List.intercalate_cons_cons⟩

/-- The texts of the items, with commas and white space between them and in brackets, are a text of
the array. -/
theorem isText_arr {items : List Json} (hgap : IsSpacing gap) (hlast : IsSpacing last)
    (hitems : List.Forall₂ IsText texts items) :
    IsText ('[' :: (gap ++ ((',' :: gap).intercalate texts ++ (last ++ [']'])))) (.arr items) where
  opens := ⟨'[', _, rfl, rfl, by decide⟩
  read fuel rest hfuel _ := by
    cases fuel with
    | zero => cases hfuel
    | succ fuel =>
        cases hitems with
        | nil =>
            simp only [List.intercalate_nil, List.nil_append, List.map_cons, List.map_append,
              List.map_nil, List.cons_append, List.append_assoc]
            rw [value?, skipSpace_cons rfl]
            simp only [skipSpace_append hgap, skipSpace_append hlast,
              skipSpace_cons (u := some ']') rfl]
        | @cons text item texts items htext hitems =>
            obtain ⟨c, tail, rfl, hspace, hc⟩ := htext.opens
            obtain ⟨body, hbody⟩ := exists_intercalate_cons (',' :: gap) c tail texts
            have hread := items?_intercalate hgap hlast (.cons htext hitems) (List.cons_ne_nil _ _)
              fuel [] rest (by
                simp only [List.length_cons, List.length_append] at hfuel
                omega)
            rw [hbody, List.map_cons, List.cons_append] at hread
            rw [hbody]
            simp only [List.cons_append, List.map_cons, List.map_append, List.append_assoc,
              List.map_nil, List.nil_append]
            rw [value?_bracket fuel hspace (by simpa using hc) hgap, hread]
            rfl

/-! ## Objects -/

/-- A text of a member of an object. -/
def IsMember (text : List Char) (m : String × Json) : Prop :=
  ∃ gap value, IsSpacing gap ∧ IsText value m.2 ∧
    text = (literal m.1).toList ++ ':' :: (gap ++ value)

theorem members?_intercalate {members : List (String × Json)} (hgap : IsSpacing gap)
    (hlast : IsSpacing last) (hmembers : List.Forall₂ IsMember texts members) (hne : members ≠ [])
    (fuel : Nat) (done : List (Option String × Json)) (input : Input)
    (hfuel : ((',' :: gap).intercalate texts).length + 1 < fuel) :
    members? fuel done
        (((',' :: gap).intercalate texts).map some ++ (last.map some ++ some '\x7d' :: input))
      = some (done.reverse ++ members.map fun m => (some m.1, m.2), input) := by
  induction hmembers generalizing fuel done with
  | nil => exact absurd rfl hne
  | @cons text m texts members hm hmembers ih =>
      obtain ⟨space, value, hspace, hvalue, htext⟩ := hm
      have hkey (rest : Input) : text.map some ++ rest
          = some '"' :: ((m.1.toList.flatMap escapedChar).map some
            ++ some '"' :: some ':' :: (space.map some ++ (value.map some ++ rest))) := by
        simp [htext, toList_literal]
      have hlength : value.length + 3 ≤ text.length := by
        simp only [htext, toList_literal, List.length_append, List.length_cons, List.length_nil]
        omega
      cases fuel with
      | zero => cases hfuel
      | succ fuel =>
          cases hmembers with
          | nil =>
              rw [List.intercalate_singleton] at hfuel ⊢
              rw [hkey, members?, skipSpace_cons rfl]
              simp only [stringAfterQuote_literal, skipSpace_cons (u := some ':') rfl]
              rw [value?_append hspace,
                hvalue.read fuel _ (by omega) (.spacing hlast (.brace input))]
              simp [skipSpace_append hlast, skipSpace_cons, isSpace]
          | cons hnext hmembers =>
              rw [separated_cons] at hfuel ⊢
              rw [List.length_append, List.length_cons, List.length_append] at hfuel
              have htail := ih (List.cons_ne_nil _ _) fuel ((some m.1, m.2) :: done) (by omega)
              rw [List.map_append, List.map_cons, List.map_append, List.append_assoc,
                List.cons_append, List.append_assoc, hkey, members?, skipSpace_cons rfl]
              simp only [stringAfterQuote_literal, skipSpace_cons (u := some ':') rfl]
              rw [value?_append hspace, hvalue.read fuel _ (by omega) (.comma _)]
              simp [skipSpace_cons (u := some ',') rfl, members?_append hgap, htail]

theorem object_some (members : List (String × Json)) :
    object (members.map fun m => (some m.1, m.2)) = .obj members := by
  have hkeys : (members.map fun m => (some m.1, m.2)).mapM
      (fun (m : Option String × Json) => m.1.map (·, m.2)) = some members := by
    induction members with
    | nil => rfl
    | cons m members ih => simp [ih]
  unfold object
  rw [hkeys]

theorem value?_brace (fuel : Nat) (hgap : IsSpacing gap) (input : Input) :
    value? (fuel + 1) (some '\x7b' :: (gap.map some ++ some '"' :: input))
      = (members? fuel [] (some '"' :: input)).map
          fun (members, input) => (object members, input) := by
  rw [value?, skipSpace_cons rfl]
  simp only [skipSpace_append hgap, skipSpace_cons (u := some '"') rfl]
  rfl

/-- The texts of the members, with commas and white space between them and in braces, are a text of
the object. -/
theorem isText_obj {members : List (String × Json)} (hgap : IsSpacing gap) (hlast : IsSpacing last)
    (hmembers : List.Forall₂ IsMember texts members) :
    IsText ('\x7b' :: (gap ++ ((',' :: gap).intercalate texts ++ (last ++ ['\x7d']))))
      (.obj members) where
  opens := ⟨'\x7b', _, rfl, rfl, by decide⟩
  read fuel rest hfuel _ := by
    cases fuel with
    | zero => cases hfuel
    | succ fuel =>
        cases hmembers with
        | nil =>
            simp only [List.intercalate_nil, List.nil_append, List.map_cons, List.map_append,
              List.map_nil, List.cons_append, List.append_assoc]
            rw [value?, skipSpace_cons rfl]
            simp only [skipSpace_append hgap, skipSpace_append hlast,
              skipSpace_cons (u := some '\x7d') rfl]
        | @cons text m texts members hm hmembers =>
            have htext : ∃ tail, text = '"' :: tail := by
              obtain ⟨space, value, -, -, rfl⟩ := hm
              exact ⟨_, by rw [toList_literal]; rfl⟩
            obtain ⟨tail, rfl⟩ := htext
            obtain ⟨body, hbody⟩ := exists_intercalate_cons (',' :: gap) '"' tail texts
            have hread := members?_intercalate hgap hlast (.cons hm hmembers)
              (List.cons_ne_nil _ _) fuel [] rest (by
                simp only [List.length_cons, List.length_append] at hfuel
                omega)
            rw [hbody, List.map_cons, List.cons_append] at hread
            rw [hbody]
            simp only [List.cons_append, List.map_cons, List.map_append, List.append_assoc,
              List.map_nil, List.nil_append]
            rw [value?_brace fuel hgap, hread, Option.map_some, List.reverse_nil, List.nil_append]
            dsimp only
            rw [object_some]

/-! ## Values on one line -/

/-- The characters of a printed value. -/
def chars (v : Json) : List Char := v.compact.toList

theorem compactItems_eq (items : List Json) : compactItems items = items.map compact := by
  induction items with
  | nil => rfl
  | cons item items ih => rw [compactItems, ih, List.map_cons]

theorem compactMembers_eq (members : List (String × Json)) :
    compactMembers members = members.map fun m => literal m.1 ++ ":" ++ compact m.2 := by
  induction members with
  | nil => rfl
  | cons m members ih => rw [compactMembers, ih, List.map_cons]

theorem chars_arr (items : List Json) :
    chars (.arr items) = '[' :: ([] ++ ([','].intercalate (items.map chars) ++ ([] ++ [']']))) := by
  simp [chars, compact, commaSeparated, compactItems_eq, Function.comp_def]
  rfl

theorem chars_obj (members : List (String × Json)) :
    chars (.obj members)
      = '\x7b' :: ([] ++ ([','].intercalate (members.map fun m =>
          (literal m.1).toList ++ ':' :: ([] ++ chars m.2)) ++ ([] ++ ['\x7d']))) := by
  simp [chars, compact, commaSeparated, compactMembers_eq, Function.comp_def]

theorem Plain.isText_chars {v : Json} (h : Plain v) : IsText (chars v) v := by
  induction h with
  | null => exact isText_null
  | bool b => exact isText_bool b
  | int n => exact isText_int n
  | str s => exact isText_str s
  | arr _ ih =>
      rw [chars_arr]
      exact isText_arr .nil .nil (List.forall₂_map_left_iff.2 (List.forall₂_same.2 ih))
  | obj _ ih =>
      rw [chars_obj]
      exact isText_obj .nil .nil (List.forall₂_map_left_iff.2
        (List.forall₂_same.2 fun m hm => ⟨[], _, .nil, ih m hm, rfl⟩))

/-- A text of a value is read as this value. -/
theorem IsText.parseUnits? {text : List Char} {v : Json} (h : IsText text v) :
    parseUnits? (text.map some) = some v := by
  have hvalue := h.read (text.length + 1) [] (Nat.lt_succ_self _) .nil
  rw [List.append_nil] at hvalue
  rw [Json.parseUnits?, List.length_map, hvalue]
  rfl

/-- A value that was printed on one line is read back as it was. -/
theorem Plain.parseUnits? {v : Json} (h : Plain v) :
    parseUnits? ((chars v).map some) = some v := h.isText_chars.parseUnits?

theorem Plain.parse?_compact {v : Json} (h : Plain v) : parse? v.compact = some v := h.parseUnits?

theorem Plain.parseBytes?_encode {v : Json} (h : Plain v) :
    parseBytes? (Text.Utf8.encode v.compact) = some v := by
  rw [parseBytes?, Text.Utf8.decodeUnits_encode]
  exact h.parseUnits?

/-! ## Values over several lines -/

theorem prettyItems_eq (depth : Nat) (items : List Json) :
    prettyItems depth items = items.map (prettyAt depth) := by
  induction items with
  | nil => rfl
  | cons item items ih => rw [prettyItems, ih, List.map_cons]

theorem prettyMembers_eq (depth : Nat) (members : List (String × Json)) :
    prettyMembers depth members
      = members.map fun m => literal m.1 ++ ": " ++ prettyAt depth m.2 := by
  induction members with
  | nil => rfl
  | cons m members ih => rw [prettyMembers, ih, List.map_cons]

theorem isSpacing_newline (depth : Nat) : IsSpacing (newline depth).toList := by
  have hindent (n : Nat) : ∀ c ∈ ("".pushn ' ' n).toList, c = ' ' := by
    rw [String.pushn_eq_repeat_push]
    induction n with
    | zero => simp [Nat.repeat]
    | succ n ih => simpa [Nat.repeat, or_imp, forall_and] using ih
  intro c hc
  rw [newline, String.toList_append, List.mem_append] at hc
  rcases hc with hc | hc
  · obtain rfl : c = '\n' := by simpa using hc
    rfl
  · obtain rfl := hindent _ c hc
    rfl

/-- A block has white space of its own before each of its texts and at its end, or nothing. -/
theorem toList_block (opening closing : String) (depth : Nat) (texts : List String) :
    ∃ gap last, IsSpacing gap ∧ IsSpacing last ∧
      (block opening closing depth texts).toList
        = opening.toList ++ (gap ++ ((',' :: gap).intercalate (texts.map String.toList)
            ++ (last ++ closing.toList))) := by
  cases texts with
  | nil => exact ⟨[], [], .nil, .nil, by simp [block]⟩
  | cons text texts =>
      refine ⟨_, _, isSpacing_newline (depth + 1), isSpacing_newline depth, ?_⟩
      simp [block]

theorem Plain.isText_prettyAt {v : Json} (h : Plain v) (depth : Nat) :
    IsText (prettyAt depth v).toList v := by
  induction h generalizing depth with
  | null => exact isText_null
  | bool b => exact isText_bool b
  | int n => exact isText_int n
  | str s => exact isText_str s
  | @arr items _ ih =>
      obtain ⟨gap, last, hgap, hlast, hblock⟩ :=
        toList_block "[" "]" depth (prettyItems (depth + 1) items)
      rw [prettyAt, hblock, prettyItems_eq, List.map_map]
      exact isText_arr hgap hlast
        (List.forall₂_map_left_iff.2 (List.forall₂_same.2 fun item hitem => ih item hitem _))
  | @obj members _ ih =>
      obtain ⟨gap, last, hgap, hlast, hblock⟩ :=
        toList_block "\x7b" "\x7d" depth (prettyMembers (depth + 1) members)
      rw [prettyAt, hblock, prettyMembers_eq, List.map_map]
      refine isText_obj hgap hlast
        (List.forall₂_map_left_iff.2 (List.forall₂_same.2 fun m hm => ?_))
      exact ⟨[' '], _, by simp [IsSpacing, isSpace], ih m hm (depth + 1), by simp⟩

/-- A value that was printed over several lines is read back as it was. -/
theorem Plain.parse?_pretty {v : Json} (h : Plain v) : parse? v.pretty = some v :=
  (h.isText_prettyAt 0).parseUnits?

end BundleCoverage.Json
