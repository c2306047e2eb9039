/-!
# Splitting at a separator

`split sep` cuts a text at every separator and keeps the empty pieces, so a text
with `n` separators has `n + 1` pieces, each of which stands behind as many separators as
pieces (`exists_of_getElem?_split`).  `join sep` puts pieces together again.
The two are inverse: `join_split` on every text, and `split_join` on every
non-empty list of pieces that hold no separator.
-/

namespace BundleCoverage.Text

/-- A character put in front of the first piece. -/
def consFirst (c : Char) : List (List Char) → List (List Char)
  | [] => [[c]]
  | piece :: pieces => (c :: piece) :: pieces

/-- The pieces of a text between the separators, empty ones included. -/
def split (sep : Char) : List Char → List (List Char)
  | [] => [[]]
  | c :: text => if c = sep then [] :: split sep text else consFirst c (split sep text)

/-- Pieces put together with a separator between each two. -/
def join (sep : Char) : List (List Char) → List Char
  | [] => []
  | [piece] => piece
  | piece :: next :: pieces => piece ++ sep :: join sep (next :: pieces)

/-- The text before the first separator, and what follows it if there is one. -/
def splitOnce (sep : Char) (text : List Char) : List Char × Option (List Char) :=
  match text.dropWhile (· ≠ sep) with
  | [] => (text, none)
  | _ :: after => (text.takeWhile (· ≠ sep), some after)

theorem split_ne_nil (sep : Char) (text : List Char) : split sep text ≠ [] := by
  cases text with
  | nil => simp [split]
  | cons c text =>
    by_cases h : c = sep
    · simp [split, h]
    · simp only [split, h, if_false]
      cases split sep text <;> simp [consFirst]

theorem join_cons (sep : Char) (piece : List Char) {pieces : List (List Char)}
    (h : pieces ≠ []) : join sep (piece :: pieces) = piece ++ sep :: join sep pieces := by
  cases pieces with
  | nil => exact absurd rfl h
  | cons next pieces => rfl

theorem join_consFirst (sep c : Char) {pieces : List (List Char)} (h : pieces ≠ []) :
    join sep (consFirst c pieces) = c :: join sep pieces := by
  match pieces with
  | [piece] => rfl
  | piece :: next :: rest => simp [consFirst, join]

theorem join_split (sep : Char) (text : List Char) : join sep (split sep text) = text := by
  induction text with
  | nil => rfl
  | cons c text ih =>
    by_cases h : c = sep
    · simp [split, h, join_cons sep [] (split_ne_nil sep text), ih]
    · simp [split, h, join_consFirst sep c (split_ne_nil sep text), ih]

/-- A piece holds no separator, and nothing that the text does not hold. -/
theorem mem_split {sep : Char} {piece text : List Char} (h : piece ∈ split sep text) :
    sep ∉ piece ∧ piece ⊆ text := by
  induction text generalizing piece with
  | nil =>
      obtain rfl := List.mem_singleton.1 h
      exact ⟨List.not_mem_nil, List.nil_subset _⟩
  | cons c text ih =>
      rw [split] at h
      split at h
      · rcases List.mem_cons.1 h with rfl | h
        · exact ⟨List.not_mem_nil, List.nil_subset _⟩
        · exact ⟨(ih h).1, List.subset_cons_of_subset c (ih h).2⟩
      · next hc =>
        cases hsplit : split sep text with
        | nil => exact absurd hsplit (split_ne_nil sep text)
        | cons first pieces =>
            rw [hsplit] at h ih
            rcases List.mem_cons.1 h with rfl | h
            · obtain ⟨hfirst, hsub⟩ := ih (List.mem_cons_self ..)
              refine ⟨?_, List.cons_subset_cons c hsub⟩
              rw [List.mem_cons, not_or]
              exact ⟨Ne.symm hc, hfirst⟩
            · obtain ⟨hpiece, hsub⟩ := ih (List.mem_cons_of_mem _ h)
              exact ⟨hpiece, List.subset_cons_of_subset c hsub⟩

theorem exists_of_getElem?_join {sep : Char} {pieces : List (List Char)} {piece : List Char}
    {n : Nat} (hpieces : ∀ piece ∈ pieces, sep ∉ piece) (h : pieces[n]? = some piece) :
    ∃ before after, join sep pieces = before ++ piece ++ after ∧ before.count sep = n
      ∧ (∀ c ∈ before.getLast?, c = sep) ∧ ∀ c ∈ after.head?, c = sep := by
  induction pieces generalizing n with
  | nil => cases h
  | cons first pieces ih =>
      obtain ⟨hfirst, hrest⟩ := List.forall_mem_cons.1 hpieces
      cases n with
      | zero =>
          cases h
          cases pieces with
          | nil => exact ⟨[], [], by simp [join], rfl, by simp, by simp⟩
          | cons next pieces =>
              exact ⟨[], sep :: join sep (next :: pieces), rfl, rfl, by simp, by simp⟩
      | succ n =>
          rw [List.getElem?_cons_succ] at h
          obtain ⟨before, after, hjoin, hcount, hlast, hhead⟩ := ih hrest h
          have hne : pieces ≠ [] := List.ne_nil_of_mem (List.mem_of_getElem? h)
          refine ⟨first ++ sep :: before, after, ?_, ?_, ?_, hhead⟩
          · rw [join_cons sep first hne, hjoin]
            simp
          · rw [List.count_append, List.count_eq_zero_of_not_mem hfirst, List.count_cons_self,
              hcount, Nat.zero_add]
          · -- the last separator is the one behind the first piece if no other piece follows
            cases before with
            | nil => simp
            | cons d before => simpa using hlast

/-- A piece stands behind as many separators as there are pieces before it, between two of them or
at an end of the text. -/
theorem exists_of_getElem?_split {sep : Char} {text piece : List Char} {n : Nat}
    (h : (split sep text)[n]? = some piece) :
    ∃ before after, text = before ++ piece ++ after ∧ before.count sep = n
      ∧ (∀ c ∈ before.getLast?, c = sep) ∧ ∀ c ∈ after.head?, c = sep := by
  have hplace := exists_of_getElem?_join (fun piece hmem => (mem_split hmem).1) h
  rwa [join_split] at hplace

theorem split_append {sep : Char} {piece : List Char} (h : sep ∉ piece) (rest : List Char) :
    split sep (piece ++ sep :: rest) = piece :: split sep rest := by
  induction piece with
  | nil => simp [split]
  | cons c piece ih =>
    simp only [List.mem_cons, not_or] at h
    simp [split, Ne.symm h.1, ih h.2, consFirst]

theorem split_of_notMem {sep : Char} {piece : List Char} (h : sep ∉ piece) :
    split sep piece = [piece] := by
  induction piece with
  | nil => rfl
  | cons c piece ih =>
    simp only [List.mem_cons, not_or] at h
    simp [split, Ne.symm h.1, ih h.2, consFirst]

theorem split_join {sep : Char} {pieces : List (List Char)} (hne : pieces ≠ [])
    (h : ∀ piece ∈ pieces, sep ∉ piece) : split sep (join sep pieces) = pieces := by
  induction pieces with
  | nil => exact absurd rfl hne
  | cons piece pieces ih =>
    have hp : sep ∉ piece := h piece (by simp)
    cases pieces with
    | nil => simpa [join] using split_of_notMem hp
    | cons next rest =>
      rw [join_cons sep piece (by simp), split_append hp,
        ih (by simp) fun q hq => h q (by simp [hq])]

end BundleCoverage.Text
