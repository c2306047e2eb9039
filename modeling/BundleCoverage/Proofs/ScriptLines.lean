import BundleCoverage.Script.LineIndex
import BundleCoverage.Text.Split

/-!
# Where the lines of a script start

A line of a script starts after the lines before it and their line feeds, as long as
offsets fit into words (`lineStart_ofText`).  An offset lies on the last line that does not
start after it (`LineIndex.position_spec`), so it has reached a line if it has reached the
start of the line (`LineIndex.InOrder.le_position_iff`), and positions come in the order of
their offsets (`LineIndex.position_mono`).
-/

namespace BundleCoverage

open Text

/-- The lines of a script, without their line feeds.  A line feed at the end opens an empty
last line. -/
def scriptLines (code : String) : List (List Char) := split '\n' code.toList

/-- The number of code units before a line: those of the lines before it, each with its line
feed. -/
def unitsBefore : (lines : List (List Char)) → (n : Nat) → Nat
  | _, 0 => 0
  | [], _ + 1 => 0
  | line :: lines, n + 1 => unitLength line + 1 + unitsBefore lines n

/-- The next line starts after a line and its line feed. -/
theorem unitsBefore_succ {lines : List (List Char)} {line : List Char} {n : Nat}
    (h : lines[n]? = some line) :
    unitsBefore lines (n + 1) = unitsBefore lines n + unitLength line + 1 := by
  induction lines generalizing n with
  | nil => cases h
  | cons first lines ih =>
      cases n with
      | zero =>
          cases h
          simp [unitsBefore]
      | succ n =>
          rw [List.getElem?_cons_succ] at h
          rw [unitsBefore, ih h, unitsBefore]
          omega

namespace LineIndex

theorem getElem?_startsFrom {offset : Nat} {text : List Char}
    (h : offset + unitLength text ≤ maxWord) (n : Nat) :
    (offset :: startsFrom offset text)[n]?
      = (split '\n' text)[n]?.map fun _ => offset + unitsBefore (split '\n' text) n := by
  induction text generalizing offset n with
  | nil =>
      cases n with
      | zero => rfl
      | succ n => rfl
  | cons c text ih =>
      rw [unitLength] at h
      have hnext : addWords offset (unitWidth c) = offset + unitWidth c := by
        rw [addWords]
        omega
      have hfits : offset + unitWidth c + unitLength text ≤ maxWord := by omega
      have hrest := ih hfits
      by_cases hfeed : c = '\n'
      · subst hfeed
        have hwidth : unitWidth '\n' = 1 := by decide
        rw [startsFrom, split, if_pos rfl, if_pos rfl, hnext]
        cases n with
        | zero => rfl
        | succ n =>
            rw [List.getElem?_cons_succ, hrest n, List.getElem?_cons_succ, hwidth]
            simp [unitsBefore, unitLength, Nat.add_assoc]
      · rw [startsFrom, split, if_neg hfeed, if_neg hfeed, hnext]
        obtain ⟨piece, pieces, hsplit⟩ := List.exists_cons_of_ne_nil (split_ne_nil '\n' text)
        rw [hsplit] at hrest ⊢
        cases n with
        | zero => rfl
        | succ n =>
            -- the character belongs to the first line, so the other lines start as before
            have hlater := hrest (n + 1)
            rw [List.getElem?_cons_succ, List.getElem?_cons_succ] at hlater
            rw [List.getElem?_cons_succ, hlater, consFirst, List.getElem?_cons_succ]
            simp [unitsBefore, unitLength, Nat.add_assoc]

/-- A line of a script starts after the lines before it, if the script has an offset for each
of its code units. -/
theorem lineStart_ofText {code : String} (h : unitLength code.toList ≤ maxWord) (n : Nat) :
    (ofText code).lineStart n
      = (scriptLines code)[n]?.map fun _ => unitsBefore (scriptLines code) n := by
  have hfits : 0 + unitLength code.toList ≤ maxWord := by omega
  have hstarts := getElem?_startsFrom hfits n
  simp only [Nat.zero_add] at hstarts
  exact hstarts

/-! ## Lines in order -/

/-- A line index is in order if its first line starts at zero and no line starts before an
earlier one. -/
structure InOrder (index : LineIndex) : Prop where
  /-- The first line starts at zero. -/
  first : index.lineStart 0 = some 0
  /-- The starts ascend. -/
  ascends : index.starts.Pairwise (· ≤ ·)

theorem startsFrom_ascends {offset : Nat} (h : offset ≤ maxWord) (text : List Char) :
    (offset :: startsFrom offset text).Pairwise (· ≤ ·) := by
  induction text generalizing offset with
  | nil => exact List.pairwise_singleton ..
  | cons c text ih =>
      have hnext : offset ≤ addWords offset (unitWidth c) := by
        rw [addWords]
        omega
      have hword : addWords offset (unitWidth c) ≤ maxWord := Nat.min_le_right ..
      have hrest := ih hword
      have hlater : ∀ start ∈ startsFrom (addWords offset (unitWidth c)) text, offset ≤ start :=
        fun start hmem => Nat.le_trans hnext ((List.pairwise_cons.1 hrest).1 start hmem)
      rw [startsFrom]
      by_cases hfeed : c = '\n'
      · rw [if_pos hfeed]
        refine List.pairwise_cons.2 ⟨?_, hrest⟩
        intro start hmem
        cases hmem with
        | head => exact hnext
        | tail _ hmem => exact hlater start hmem
      · rw [if_neg hfeed]
        exact List.pairwise_cons.2 ⟨hlater, (List.pairwise_cons.1 hrest).2⟩

theorem inOrder_ofText (text : String) : (ofText text).InOrder :=
  ⟨rfl, startsFrom_ascends (Nat.zero_le maxWord) text.toList⟩

variable {index : LineIndex}

/-- Before a line there are all earlier lines, and they do not start after it. -/
theorem InOrder.exists_lineStart (h : index.InOrder) {a b next : Nat}
    (hb : index.lineStart b = some next) (hab : a ≤ b) :
    ∃ start, index.lineStart a = some start ∧ start ≤ next := by
  obtain ⟨hlt, rfl⟩ := List.getElem?_eq_some_iff.1 hb
  have hlt' : a < index.starts.length := Nat.lt_of_le_of_lt hab hlt
  refine ⟨index.starts[a], List.getElem?_eq_getElem hlt', ?_⟩
  rcases Nat.lt_or_eq_of_le hab with hbefore | rfl
  · exact List.pairwise_iff_getElem.1 h.ascends a b hlt' hlt hbefore
  · exact Nat.le_refl _

/-- An offset lies on the last line that does not start after it, as many columns from the
start of the line. -/
theorem InOrder.position_spec (h : index.InOrder) (offset : Nat) :
    ∃ start, index.lineStart (index.position offset).1 = some start ∧ start ≤ offset ∧
      (index.position offset).2 = offset - start ∧
      ∀ next, index.lineStart ((index.position offset).1 + 1) = some next → offset < next := by
  have hnotAfter := List.all_takeWhile (p := (decide <| · ≤ offset)) (l := index.starts)
  have hafter := List.head?_dropWhile_not (decide <| · ≤ offset) index.starts
  have hstarts := List.takeWhile_append_dropWhile (p := (decide <| · ≤ offset)) (l := index.starts)
  have hfirst := h.first
  simp only [lineStart, position]
  rw [lineStart, ← hstarts] at hfirst
  generalize index.starts.takeWhile (decide <| · ≤ offset) = before at *
  generalize index.starts.dropWhile (decide <| · ≤ offset) = after at *
  cases hlast : before.getLast? with
  | none =>
      -- the first line does not start after any offset
      rw [List.getLast?_eq_none_iff] at hlast
      subst hlast
      rw [List.nil_append, ← List.head?_eq_getElem?] at hfirst
      rw [hfirst] at hafter
      simp at hafter
  | some start =>
      have hlength : 0 < before.length := List.length_pos_of_mem (List.mem_of_getLast? hlast)
      have hstart : start ≤ offset := by
        simpa using List.all_eq_true.1 hnotAfter start (List.mem_of_getLast? hlast)
      refine ⟨start, ?_, hstart, rfl, ?_⟩
      · rw [← hstarts, List.getElem?_append_left (by omega), ← List.getLast?_eq_getElem?, hlast]
      · intro next hnext
        rw [← hstarts, List.getElem?_append_right (by omega), Nat.sub_add_cancel hlength,
          Nat.sub_self, ← List.head?_eq_getElem?] at hnext
        rw [hnext] at hafter
        simpa using hafter

/-- An offset lies on a line or after it if the line does not start after the offset. -/
theorem InOrder.le_position_iff (h : index.InOrder) {line start : Nat}
    (hline : index.lineStart line = some start) (offset : Nat) :
    line ≤ (index.position offset).1 ↔ start ≤ offset := by
  obtain ⟨own, hown, hle, -, hnext⟩ := h.position_spec offset
  constructor
  · intro hbefore
    obtain ⟨start', hline', hstart'⟩ := h.exists_lineStart hown hbefore
    rw [hline] at hline'
    cases hline'
    exact Nat.le_trans hstart' hle
  · intro hstart
    refine Nat.le_of_not_lt fun hafter => ?_
    -- the line after that of the offset would start after the offset
    obtain ⟨next, hlater, hnextle⟩ := h.exists_lineStart hline hafter
    have hlt := hnext next hlater
    omega

/-- The positions of offsets come in the order of the offsets. -/
theorem InOrder.position_mono (h : index.InOrder) {a b : Nat} (hab : a ≤ b) :
    (index.position a).1 < (index.position b).1 ∨
      (index.position a).1 = (index.position b).1 ∧
        (index.position a).2 ≤ (index.position b).2 := by
  obtain ⟨start, hline, hstart, hcolumn, -⟩ := h.position_spec a
  obtain ⟨start', hline', -, hcolumn', -⟩ := h.position_spec b
  have hle : (index.position a).1 ≤ (index.position b).1 :=
    (h.le_position_iff hline b).2 (Nat.le_trans hstart hab)
  rcases Nat.lt_or_eq_of_le hle with hlt | heq
  · exact .inl hlt
  · rw [heq, hline'] at hline
    cases hline
    exact .inr ⟨heq, by omega⟩

end LineIndex

end BundleCoverage
