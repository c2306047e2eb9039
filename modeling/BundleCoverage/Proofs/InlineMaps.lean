import BundleCoverage.Proofs.BrokenMaps
import BundleCoverage.Proofs.Inside
import BundleCoverage.Proofs.Payloads
import BundleCoverage.Proofs.Stripping

/-!
# Maps in the text of a script

A script that ends in a data URL with its map refers to this map, whatever stands in front of the
URL: the mark of a reference occurs neither in the URL nor behind it
(`MapLookup.not_infix_inlineUrl`), and the reference ends where the URL does.  So the map is found
unless there is another one next to the script (`MapLookup.found_of_inlineMap`).
-/

namespace BundleCoverage

namespace Text

/-! ## Occurrences in text -/

variable {needle text : List Char} {c : Char}

/-- A needle occurs on one side of a character that it lacks. -/
theorem infix_append_cons_iff (hc : c ∉ needle) {before after : List Char} :
    needle <:+: before ++ c :: after ↔ needle <:+: before ∨ needle <:+: after := by
  constructor
  · intro h
    rcases List.infix_append_iff.1 h with h | h | ⟨start, rest, rfl, hstart, hrest⟩
    · exact .inl h
    · rcases List.infix_cons_iff.1 h with h | h
      · rcases List.prefix_cons_iff.1 h with rfl | ⟨rest, rfl, -⟩
        · exact .inl List.nil_infix
        · simp at hc
      · exact .inr h
    · rcases List.prefix_cons_iff.1 hrest with rfl | ⟨rest, rfl, -⟩
      · exact .inl (by simpa using hstart.isInfix)
      · simp at hc
  · rintro (h | h)
    · exact h.trans (List.infix_append' [] before (c :: after))
    · exact h.trans ⟨before ++ [c], [], by simp⟩

/-- A needle that ends in a character does not reach into a text without this character. -/
theorem infix_append_iff_of_notMem (hc : c ∉ text) {before : List Char} :
    needle ++ [c] <:+: before ++ text ↔ needle ++ [c] <:+: before := by
  constructor
  · intro h
    rcases List.infix_append_iff.1 h with h | h | ⟨start, rest, hsplit, hstart, hrest⟩
    · exact h
    · exact absurd (h.subset (by simp)) hc
    · cases rest using List.reverseRecOn with
      | nil => exact (by simpa using hsplit) ▸ hstart.isInfix
      | append_singleton rest last =>
          rw [← List.append_assoc] at hsplit
          obtain ⟨-, hlast⟩ := List.append_inj' hsplit rfl
          cases hlast
          exact absurd (hrest.subset (by simp)) hc
  · exact fun h => h.trans (List.infix_append' [] before text)

/-- A needle whose first character does not come again starts in no other place of itself. -/
theorem infix_append_iff_of_head_notMem (hc : c ∉ needle) :
    c :: needle <:+: needle ++ text ↔ c :: needle <:+: text := by
  constructor
  · intro h
    rcases List.infix_append_iff.1 h with h | h | ⟨start, rest, hsplit, hstart, hrest⟩
    · exact absurd (h.subset (by simp)) hc
    · exact h
    · cases start with
      | nil => exact (show c :: needle = rest from hsplit) ▸ hrest.isInfix
      | cons d start =>
          cases hsplit
          exact absurd (hstart.subset (by simp)) hc
  · exact fun h => h.trans ⟨needle, [], by simp⟩

theorem afterLast?_eq_none (hneedle : needle ≠ []) (h : ¬ needle <:+: text) :
    afterLast? needle text = none := by
  induction text with
  | nil =>
      rw [afterLast?, stripPrefix?_eq_none_iff]
      exact fun hstarts => hneedle (List.prefix_nil.1 hstarts)
  | cons d text ih =>
      rw [List.infix_cons_iff, not_or] at h
      rw [afterLast?, ih h.2, stripPrefix?_eq_none_iff.2 h.1]
      rfl

/-- The last occurrence of a needle is the one behind which there is no other. -/
theorem afterLast?_append (hc : c ∉ needle) (h : ¬ c :: needle <:+: text) (before : List Char) :
    afterLast? (c :: needle) (before ++ (c :: needle ++ text)) = some text := by
  induction before with
  | nil =>
      have hrest : afterLast? (c :: needle) (needle ++ text) = none :=
        afterLast?_eq_none (by simp) (mt (infix_append_iff_of_head_notMem hc).1 h)
      show (afterLast? (c :: needle) (needle ++ text)
        <|> stripPrefix? (c :: needle) (c :: needle ++ text)) = some text
      rw [hrest, stripPrefix?_append]
      rfl
  | cons d before ih =>
      show (afterLast? (c :: needle) (before ++ (c :: needle ++ text)) <|> _) = some text
      rw [ih]
      rfl

/-- Nothing is trimmed from a text without blanks. -/
theorem trim_of_forall (h : ∀ c ∈ text, isBlank c = false) : trim text = text := by
  have hdrop : ∀ chars : List Char, (∀ c ∈ chars, isBlank c = false) →
      chars.dropWhile isBlank = chars := by
    intro chars hchars
    cases chars with
    | nil => rfl
    | cons d chars => exact List.dropWhile_cons_of_neg (by simp [hchars d (by simp)])
  rw [trim, trimStart, trimEnd, hdrop text h, hdrop _ fun c hc => h c (List.mem_reverse.1 hc),
    List.reverse_reverse]

theorem splitOnce_append (hc : c ∉ text) (rest : List Char) :
    splitOnce c (text ++ c :: rest) = (text, some rest) := by
  have hbefore : ∀ d ∈ text, (decide (d ≠ c)) = true := by
    intro d hd
    exact decide_eq_true fun heq => hc (heq ▸ hd)
  rw [splitOnce, List.dropWhile_append_of_pos hbefore, List.takeWhile_append_of_pos hbefore]
  simp

end Text

namespace MapLookup

open Text

/-! ## Data URLs with a map -/

/-- A name of a charset has no characters that mean something else: none that ends a reference, no
comma and no equals sign. -/
def IsCharsetName (name : List Char) : Prop :=
  ∀ c ∈ name, endsReference c = false ∧ c ≠ ',' ∧ c ≠ '='

/-- Letters, digits and hyphens are such characters. -/
theorem isCharsetName_of_alphanum {name : List Char} (h : ∀ c ∈ name, c.isAlphanum ∨ c = '-') :
    IsCharsetName name := by
  intro c hc
  have hrange : 48 ≤ c.toNat ∧ c.toNat ≤ 57 ∨ 65 ≤ c.toNat ∧ c.toNat ≤ 90
      ∨ 97 ≤ c.toNat ∧ c.toNat ≤ 122 ∨ c.toNat = 45 := by
    rcases h c hc with halphanum | rfl
    · have hranges := toNat_of_isAlphanum halphanum
      omega
    · decide
  have hne (d : Char) (hd : d ∈ ['*', '"', '\'', ',', '=']) : c ≠ d := by
    have hother : ∀ d ∈ ['*', '"', '\'', ',', '='], d.toNat < 48 ∧ d.toNat ≠ 45 ∨ d.toNat = 61 :=
      List.all_iff_forall_prop.1 (by decide)
    rintro rfl
    have := hother c hd
    omega
  have hblank : isBlank c = false := by
    simp only [isBlank, Bool.or_eq_false_iff, Bool.and_eq_false_imp, decide_eq_true_eq,
      decide_eq_false_iff_not, beq_eq_false_iff_ne]
    omega
  simp [endsReference, hblank, hne]

/-- Parameters of a data URL in base 64, with a charset or without. -/
inductive IsParameters : List Char → Prop
  | plain : IsParameters ";base64".toList
  | charset {name : List Char} (h : IsCharsetName name) :
      IsParameters (";charset=".toList ++ name ++ ";base64".toList)

/-- A data URL of JSON with some parameters and bytes. -/
def inlineUrl (parameters : List Char) (bytes : List UInt8) : List Char :=
  dataUrlStart ++ (parameters ++ ',' :: Base64.encode bytes)

/-- The text of a script with a data URL behind the mark of a reference. -/
def inlineScript (before parameters : String) (bytes : List UInt8) (after : String) : String :=
  before ++ "//# sourceMappingURL=data:application/json" ++ parameters ++ ","
    ++ String.ofList (Base64.encode bytes) ++ after

/-- A text that is empty or starts with a character that ends a reference can stand behind one. -/
def IsBehindReference (after : List Char) : Prop := ∀ c ∈ after.head?, endsReference c

variable {parameters : List Char}

theorem IsParameters.split_any (h : IsParameters parameters) :
    (split ';' parameters).any isBase64Mark := by
  cases h with
  | plain => decide
  | @charset name h =>
      have hmark : (split ';' "base64".toList).any isBase64Mark = true := by decide
      show (split ';' (";charset=".toList ++ name ++ ';' :: "base64".toList)).any isBase64Mark
      rw [split_append_sep, List.any_append, hmark, Bool.or_true]

theorem IsParameters.forall_mem (h : IsParameters parameters) :
    ∀ c ∈ parameters, endsReference c = false ∧ c ≠ ',' := by
  cases h with
  | plain => exact List.all_iff_forall_prop.1 (by decide)
  | charset h =>
      have hstart : ∀ c ∈ ";charset=".toList, endsReference c = false ∧ c ≠ ',' :=
        List.all_iff_forall_prop.1 (by decide)
      have hend : ∀ c ∈ ";base64".toList, endsReference c = false ∧ c ≠ ',' :=
        List.all_iff_forall_prop.1 (by decide)
      intro c hc
      rcases List.mem_append.1 hc with hc | hc
      · rcases List.mem_append.1 hc with hc | hc
        · exact hstart c hc
        · exact ⟨(h c hc).1, (h c hc).2.1⟩
      · exact hend c hc

/-- The mark of a reference does not occur in front of the payload of a data URL. -/
theorem IsParameters.not_infix (h : IsParameters parameters) :
    ¬ referenceMark <:+: dataUrlStart ++ parameters := by
  cases h with
  | plain => decide
  | @charset name h =>
      have hname : '=' ∉ name := fun hmem => (h '=' hmem).2.2 rfl
      have hstart : ¬ "sourceMappingURL".toList ++ ['='] <:+: dataUrlStart ++ ";charset=".toList := by
        decide
      have hend : ¬ referenceMark <:+: "base64".toList := by decide
      have hbefore : ¬ referenceMark <:+: dataUrlStart ++ ";charset=".toList ++ name := by
        rw [show referenceMark = "sourceMappingURL".toList ++ ['='] by decide]
        exact mt (infix_append_iff_of_notMem hname).1 hstart
      rw [← List.append_assoc, ← List.append_assoc]
      exact mt (infix_append_cons_iff (by decide)).1 (not_or.2 ⟨hbefore, hend⟩)

/-- The mark of a reference does not occur in a payload, as no payload has an `L` in front of an
equals sign. -/
theorem not_infix_encode (bytes : List UInt8) : ¬ referenceMark <:+: Base64.encode bytes := by
  have hdigit : [Base64.digitChar 11, '='] <:+: referenceMark := by decide
  exact fun h => Base64.not_infix_encode (by decide) (by decide) bytes (hdigit.trans h)

theorem notMem_referenceMark {c : Char} (h : endsReference c) : c ∉ referenceMark := by
  have hmark : ∀ c ∈ referenceMark, ¬ endsReference c := List.all_iff_forall_prop.1 (by decide)
  exact fun hmem => hmark c hmem h

variable {after : List Char}

/-- The mark of a reference occurs neither in a data URL with a map nor behind it. -/
theorem not_infix_inlineUrl (h : IsParameters parameters) (bytes : List UInt8)
    (hends : IsBehindReference after) (hafter : ¬ referenceMark <:+: after) :
    ¬ referenceMark <:+: inlineUrl parameters bytes ++ after := by
  have hpayload : ¬ referenceMark <:+: Base64.encode bytes ++ after := by
    cases after with
    | nil =>
        rw [List.append_nil]
        exact not_infix_encode bytes
    | cons c after =>
        have hc : c ∉ referenceMark := notMem_referenceMark (hends c rfl)
        have hrest : ¬ referenceMark <:+: after := fun h => hafter (List.infix_cons h)
        exact mt (infix_append_cons_iff hc).1 (not_or.2 ⟨not_infix_encode bytes, hrest⟩)
  rw [inlineUrl, ← List.append_assoc, List.append_assoc, List.cons_append]
  exact mt (infix_append_cons_iff (by decide)).1 (not_or.2 ⟨h.not_infix, hpayload⟩)

theorem forall_mem_inlineUrl (h : IsParameters parameters) (bytes : List UInt8) :
    ∀ c ∈ inlineUrl parameters bytes, endsReference c = false := by
  have hstart : ∀ c ∈ dataUrlStart, endsReference c = false :=
    List.all_iff_forall_prop.1 (by decide)
  have hdigit : ∀ c ∈ Base64.alphabet, endsReference c = false :=
    List.all_iff_forall_prop.1 (by decide +kernel)
  intro c hc
  rcases List.mem_append.1 hc with hc | hc
  · exact hstart c hc
  · rcases List.mem_append.1 hc with hc | hc
    · exact (h.forall_mem c hc).1
    · rcases List.mem_cons.1 hc with rfl | hc
      · decide
      · rcases Base64.forall_mem_encode bytes c hc with hc | rfl
        · exact hdigit c hc
        · decide

/-- A script refers to the data URL that it ends in. -/
theorem mapReference?_inlineUrl (h : IsParameters parameters) (bytes : List UInt8)
    (hends : IsBehindReference after) (hafter : ¬ referenceMark <:+: after) (before : List Char) :
    mapReference? (before ++ (referenceMark ++ (inlineUrl parameters bytes ++ after)))
      = some (inlineUrl parameters bytes) := by
  have hlast : afterLast? referenceMark
      (before ++ (referenceMark ++ (inlineUrl parameters bytes ++ after)))
        = some (inlineUrl parameters bytes ++ after) := by
    have hnone := not_infix_inlineUrl h bytes hends hafter
    rw [show referenceMark = 's' :: "ourceMappingURL=".toList by decide] at hnone ⊢
    exact afterLast?_append (by decide) hnone before
  have hinside : ∀ c ∈ inlineUrl parameters bytes, (!endsReference c) = true := by
    intro c hc
    rw [forall_mem_inlineUrl h bytes c hc]
    rfl
  have hbehind : after.takeWhile (!endsReference ·) = [] := by
    cases after with
    | nil => rfl
    | cons c after => exact List.takeWhile_cons_of_neg (by simp [hends c rfl])
  have hne : inlineUrl parameters bytes ≠ [] :=
    List.append_ne_nil_of_left_ne_nil (by decide) _
  rw [mapReference?, hlast]
  show (if (inlineUrl parameters bytes ++ after).takeWhile (!endsReference ·) = [] then none
    else some ((inlineUrl parameters bytes ++ after).takeWhile (!endsReference ·))) = _
  rw [List.takeWhile_append_of_pos hinside, hbehind, List.append_nil, if_neg hne]

/-- A data URL is read as the bytes in it. -/
theorem dataUrlPayload?_inlineUrl (h : IsParameters parameters) (bytes : List UInt8) :
    dataUrlPayload? (inlineUrl parameters bytes) = .ok bytes := by
  have hcomma : ',' ∉ parameters := fun hmem => (h.forall_mem ',' hmem).2 rfl
  have hblank : ∀ c ∈ Base64.encode bytes, isBlank c = false := by
    have hdigit : ∀ c ∈ Base64.alphabet, isBlank c = false :=
      List.all_iff_forall_prop.1 (by decide +kernel)
    intro c hc
    rcases Base64.forall_mem_encode bytes c hc with hc | rfl
    · exact hdigit c hc
    · decide
  unfold dataUrlPayload? inlineUrl
  simp only [stripPrefix?_append, splitOnce_append hcomma, h.split_any, if_true,
    trim_of_forall hblank, Base64.decode?_encode]

theorem ofDataUrl_inlineUrl (h : IsParameters parameters) (bytes : List UInt8) :
    ofDataUrl (inlineUrl parameters bytes) = ofBytes bytes := by
  rw [ofDataUrl, dataUrlPayload?_inlineUrl h]

/-- A script that ends in a data URL with a map has this map if there is no other one next to
it, whatever stands in front of the URL. -/
theorem found_of_inlineMap {bytes : List UInt8} {map : SourceMap}
    (hmap : SourceMap.ofBytes bytes = .ok map) {parameters after : String}
    (hparameters : IsParameters parameters.toList) (hends : IsBehindReference after.toList)
    (hafter : ¬ referenceMark <:+: after.toList) {d : Disk} {buildDirectory url : String}
    (hadjacent : (adjacent d (locateScript url buildDirectory)).map? = none) (before : String) :
    ofScript d buildDirectory url (inlineScript before parameters bytes after) = .found map := by
  have hcode : (inlineScript before parameters bytes after).toList
      = (before.toList ++ "//# ".toList)
        ++ (referenceMark ++ (inlineUrl parameters.toList bytes ++ after.toList)) := by
    have hstart : "//# sourceMappingURL=data:application/json".toList
        = "//# ".toList ++ (referenceMark ++ dataUrlStart) := by decide
    have hcomma : ",".toList = [','] := rfl
    simp only [inlineScript, String.toList_append, String.toList_ofList, hstart, hcomma, inlineUrl,
      List.append_assoc, List.cons_append, List.nil_append]
  have hdata : startsWith (inlineUrl parameters.toList bytes) "data:".toList = true := by
    rw [startsWith, inlineUrl,
      show dataUrlStart = "data:".toList ++ "application/json".toList by decide,
      List.append_assoc, stripPrefix?_append]
    rfl
  have hreferenced : referenced d (locateScript url buildDirectory)
      (inlineScript before parameters bytes after) = .found map := by
    unfold referenced
    rw [hcode, mapReference?_inlineUrl hparameters bytes hends hafter]
    show (if startsWith (inlineUrl parameters.toList bytes) "data:".toList
      then ofDataUrl (inlineUrl parameters.toList bytes) else _) = _
    rw [if_pos hdata, ofDataUrl_inlineUrl hparameters, ofBytes, hmap]
  show (adjacent d (locateScript url buildDirectory)).orElse _ = _
  rw [hreferenced]
  cases hfound : adjacent d (locateScript url buildDirectory) with
  | found other =>
      rw [hfound] at hadjacent
      cases hadjacent
  | absent => rfl
  | malformed fault => rfl

/-- With a broken map next to the script, an earlier reference and a line feed at the end. -/
theorem found_of_inlineMap_behind_reference :
    ofScript { nodes := .ofList [(["a.js.map"], Node.file [])] } ".next" "a.js"
        (inlineScript "//# sourceMappingURL=a.map\nf();" ";charset=utf-8;base64"
          (Utf8.encode "\x7b\"version\":3,\"mappings\":\"AAAA\"\x7d") "\n")
      = .found { mappings := "AAAA" } := by
  have hmap : SourceMap.ofBytes (Utf8.encode "\x7b\"version\":3,\"mappings\":\"AAAA\"\x7d")
      = .ok { mappings := "AAAA" } := by
    decide +kernel
  have hname : IsCharsetName "utf-8".toList :=
    isCharsetName_of_alphanum (List.all_iff_forall_prop.1 (by decide))
  have hparameters : IsParameters ";charset=utf-8;base64".toList := .charset hname
  have hends : IsBehindReference "\n".toList := by
    rintro c ⟨⟩
    decide
  exact found_of_inlineMap hmap hparameters hends (by decide) (by decide +kernel) _

end MapLookup

end BundleCoverage
