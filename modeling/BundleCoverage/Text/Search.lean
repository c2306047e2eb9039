/-!
# Searching in text

Texts are lists of characters here, so that every search is a structural
recursion.  `stripPrefix?` takes a known beginning away, `cut?` splits a text
around the first occurrence of a needle, and `isInfix` only asks whether there
is one.

The lemmas say that nothing is lost: what `stripPrefix?` and `cut?` return,
put together again, is the text they were given.
-/

namespace BundleCoverage.Text

/-- The rest of a text after a known beginning, if it begins that way. -/
def stripPrefix? : (start text : List Char) → Option (List Char)
  | [], text => some text
  | _ :: _, [] => none
  | a :: start, b :: text => if a = b then stripPrefix? start text else none

/-- Whether a text begins with another. -/
def startsWith (text start : List Char) : Bool := (stripPrefix? start text).isSome

/-- The rest of a text before a known ending, if it ends that way. -/
def stripSuffix? (ending text : List Char) : Option (List Char) :=
  (stripPrefix? ending.reverse text.reverse).map List.reverse

/-- Whether a text ends with another. -/
def endsWith (text ending : List Char) : Bool := (stripSuffix? ending text).isSome

/-- The text before and after the first occurrence of `needle`. -/
def cut? (needle : List Char) : List Char → Option (List Char × List Char)
  | [] => if needle = [] then some ([], []) else none
  | c :: text =>
    match stripPrefix? needle (c :: text) with
    | some after => some ([], after)
    | none => (cut? needle text).map fun (before, after) => (c :: before, after)

/-- The text after the last occurrence of `needle`. -/
def afterLast? (needle : List Char) : List Char → Option (List Char)
  | [] => stripPrefix? needle []
  | c :: text => afterLast? needle text <|> stripPrefix? needle (c :: text)

/-- Whether `needle` occurs somewhere in a text. -/
def isInfix (needle text : List Char) : Bool := (cut? needle text).isSome

/-- Every occurrence of one character replaced by another. -/
def replaceChar (old new : Char) (text : List Char) : List Char :=
  text.map fun c => if c = old then new else c

theorem stripPrefix?_eq_some_iff {start text rest : List Char} :
    stripPrefix? start text = some rest ↔ text = start ++ rest := by
  induction start generalizing text with
  | nil => simp [stripPrefix?, eq_comm]
  | cons a start ih =>
    cases text with
    | nil => simp [stripPrefix?]
    | cons b text =>
      by_cases h : a = b
      · subst h; simp [stripPrefix?, ih]
      · simp [stripPrefix?, h, Ne.symm h]

theorem stripPrefix?_append (start rest : List Char) :
    stripPrefix? start (start ++ rest) = some rest :=
  stripPrefix?_eq_some_iff.2 rfl

theorem stripSuffix?_eq_some_iff {ending text rest : List Char} :
    stripSuffix? ending text = some rest ↔ text = rest ++ ending := by
  simp only [stripSuffix?, Option.map_eq_some_iff, stripPrefix?_eq_some_iff]
  constructor
  · rintro ⟨r, hr, rfl⟩
    rw [← List.reverse_reverse text, hr]
    simp
  · rintro rfl
    exact ⟨rest.reverse, by simp, by simp⟩

theorem eq_append_of_cut? {needle text before after : List Char}
    (h : cut? needle text = some (before, after)) : text = before ++ needle ++ after := by
  induction text generalizing before with
  | nil =>
    simp only [cut?] at h
    split at h
    · next hn => cases h; simp [hn]
    · cases h
  | cons c text ih =>
    simp only [cut?] at h
    split at h
    · next hs => cases h; simpa using stripPrefix?_eq_some_iff.1 hs
    · obtain ⟨⟨b, a⟩, hb, he⟩ := Option.map_eq_some_iff.1 h
      cases he
      simp [ih hb]

end BundleCoverage.Text
