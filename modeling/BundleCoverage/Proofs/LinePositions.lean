import BundleCoverage.Proofs.Projections

/-!
# Offsets and positions

The line of an offset is the number of line feeds before it (`LineIndex.position_line_eq`), so the
positions and the offsets of a text are inverse wherever offsets fit into words
(`LineIndex.Inverts`).  Only a column behind the line feed of its line is lost: its offset lies on
a later line.  In a longer text some lines start too early, but each offset still lies on a line
that does not start after it (`LineIndex.positions_inverse`).
-/

namespace BundleCoverage

open Text SourceMap

/-! ## Line feeds -/

/-- The offsets of the line feeds of a text that starts at an offset, in code units. -/
def feedsFrom (offset : Nat) : List Char → List Nat
  | [] => []
  | c :: text =>
    let feeds := feedsFrom (offset + unitWidth c) text
    if c = '\n' then offset :: feeds else feeds

/-- The offsets of the line feeds of a script. -/
def lineFeeds (code : String) : List Nat := feedsFrom 0 code.toList

theorem mem_feedsFrom {offset feed : Nat} {text : List Char} :
    feed ∈ feedsFrom offset text ↔
      ∃ before after, text = before ++ '\n' :: after ∧ feed = offset + unitLength before := by
  induction text generalizing offset with
  | nil => simp [feedsFrom]
  | cons c text ih =>
      -- a line feed is the first character or one of the rest
      have hcons : feed ∈ feedsFrom offset (c :: text) ↔
          (c = '\n' ∧ feed = offset) ∨ feed ∈ feedsFrom (offset + unitWidth c) text := by
        rw [feedsFrom]
        by_cases hfeed : c = '\n' <;> simp [hfeed]
      rw [hcons, ih]
      constructor
      · rintro (⟨rfl, rfl⟩ | ⟨before, after, rfl, rfl⟩)
        · exact ⟨[], text, rfl, rfl⟩
        · exact ⟨c :: before, after, rfl, by rw [unitLength, Nat.add_assoc]⟩
      · rintro ⟨before, after, htext, rfl⟩
        cases before with
        | nil =>
            rw [List.nil_append, List.cons.injEq] at htext
            exact .inl ⟨htext.1, rfl⟩
        | cons d before =>
            rw [List.cons_append, List.cons.injEq] at htext
            obtain ⟨rfl, rfl⟩ := htext
            exact .inr ⟨before, after, rfl, by rw [unitLength, Nat.add_assoc]⟩

/-- A line feed of a script stands behind as many code units as its offset says. -/
theorem mem_lineFeeds {code : String} {feed : Nat} :
    feed ∈ lineFeeds code ↔
      ∃ before after, code.toList = before ++ '\n' :: after ∧ feed = unitLength before := by
  rw [lineFeeds, mem_feedsFrom]
  simp only [Nat.zero_add]

theorem length_feedsFrom (offset : Nat) (text : List Char) :
    (feedsFrom offset text).length = text.count '\n' := by
  induction text generalizing offset with
  | nil => rfl
  | cons c text ih =>
      rw [feedsFrom, List.count_cons]
      by_cases hfeed : c = '\n' <;> simp [hfeed, ih]

/-- Each line feed of a script has one offset. -/
theorem length_lineFeeds (code : String) : (lineFeeds code).length = code.toList.count '\n' :=
  length_feedsFrom 0 code.toList

namespace LineIndex

/-- A line starts behind each line feed, as long as offsets fit into words. -/
theorem startsFrom_eq {offset : Nat} {text : List Char} (h : offset + unitLength text ≤ maxWord) :
    startsFrom offset text = (feedsFrom offset text).map (· + 1) := by
  induction text generalizing offset with
  | nil => rfl
  | cons c text ih =>
      rw [unitLength] at h
      have hnext : addWords offset (unitWidth c) = offset + unitWidth c := by
        rw [addWords]
        omega
      have hfits : offset + unitWidth c + unitLength text ≤ maxWord := by omega
      rw [startsFrom, feedsFrom, hnext, ih hfits]
      by_cases hfeed : c = '\n'
      · subst hfeed
        rw [if_pos rfl, if_pos rfl, List.map_cons]
        rfl
      · rw [if_neg hfeed, if_neg hfeed]

variable {code : String}

theorem starts_ofText (h : unitLength code.toList ≤ maxWord) :
    (ofText code).starts = 0 :: (lineFeeds code).map (· + 1) := by
  have hfits : 0 + unitLength code.toList ≤ maxWord := by omega
  exact congrArg (0 :: ·) (startsFrom_eq hfits)

/-- The line of an offset is the number of line feeds before the offset. -/
theorem position_line_eq (h : unitLength code.toList ≤ maxWord) (offset : Nat) :
    ((ofText code).position offset).1 = (lineFeeds code).countP (· < offset) := by
  have hordered : (ofText code).starts.Pairwise
      fun a b => decide (b ≤ offset) → decide (a ≤ offset) := by
    refine (inOrder_ofText code).ascends.imp ?_
    intro a b hle hb
    simp only [decide_eq_true_eq] at *
    omega
  rw [position, takeWhile_eq_filter hordered, ← List.countP_eq_length_filter, starts_ofText h,
    List.countP_cons_of_pos (by simp), Nat.add_sub_cancel, List.countP_map]
  rfl

/-- There are as many lines as line feeds, and one more. -/
theorem lineStart_isSome_iff (h : unitLength code.toList ≤ maxWord) (line : Nat) :
    ((ofText code).lineStart line).isSome ↔ line ≤ code.toList.count '\n' := by
  rw [lineStart, starts_ofText h, isSome_getElem?, List.length_cons, List.length_map,
    length_lineFeeds]
  omega

/-! ## Positions and offsets -/

/-- The offsets and positions of a line index are inverse on a script. -/
structure Inverts (index : LineIndex) (code : String) : Prop where
  /-- The lines of the script start behind the lines before them. -/
  start : ∀ line, index.lineStart line
    = (scriptLines code)[line]?.map fun _ => unitsBefore (scriptLines code) line
  /-- There is a line behind each line feed, and the first. -/
  lines : ∀ line, (index.lineStart line).isSome ↔ line ≤ code.toList.count '\n'
  /-- An offset lies on the line behind the line feeds before it, as many columns from the start of
  this line. -/
  position : ∀ offset, ∃ start,
    index.lineStart ((lineFeeds code).countP (· < offset)) = some start ∧ start ≤ offset ∧
      index.position offset = ((lineFeeds code).countP (· < offset), offset - start)
  /-- The position of an offset has this offset. -/
  offset_position : ∀ offset ≤ maxWord,
    index.offset (index.position offset).1 (index.position offset).2 = some offset
  /-- The offset of a line and column that fits into a word has this position if the column is one
  of the line, of which the line feed is part, or the line is the last. -/
  position_offset : ∀ line column start, index.lineStart line = some start →
    start + column ≤ maxWord →
      index.offset line column = some (start + column) ∧
        (index.position (start + column) = (line, column) ↔
          line + 1 = index.lineCount ∨
            ∃ text, (scriptLines code)[line]? = some text ∧ column < unitLength text + 1)
  /-- Positions come in the order of their offsets. -/
  mono : ∀ a b, a ≤ b → notAfter (index.position a) (index.position b)

theorem offset_position_eq (text : String) {offset : Nat} (h : offset ≤ maxWord) :
    (ofText text).offset ((ofText text).position offset).1 ((ofText text).position offset).2
      = some offset := by
  obtain ⟨start, hline, hstart, hcolumn, -⟩ := (inOrder_ofText text).position_spec offset
  rw [LineIndex.offset, hline, Option.map_some, hcolumn, addWords, Nat.add_sub_cancel' hstart,
    Nat.min_eq_left h]

/-- A line and column is the position of its offset if the next line starts after the offset. -/
theorem position_eq_iff {index : LineIndex} (h : index.InOrder) {line start : Nat} (column : Nat)
    (hline : index.lineStart line = some start) :
    index.position (start + column) = (line, column) ↔
      ∀ next, index.lineStart (line + 1) = some next → start + column < next := by
  obtain ⟨own, hown, hle, hcolumn, hnext⟩ := h.position_spec (start + column)
  constructor
  · intro hposition
    rw [hposition] at hnext
    exact hnext
  · intro hbefore
    have hreached : line ≤ (index.position (start + column)).1 :=
      (h.le_position_iff hline _).2 (Nat.le_add_right ..)
    have hsame : (index.position (start + column)).1 = line := by
      refine Nat.le_antisymm (Nat.le_of_not_lt fun hlater => ?_) hreached
      obtain ⟨next, hnext, -⟩ := h.exists_lineStart hown hlater
      have := (h.le_position_iff hnext _).1 hlater
      have := hbefore next hnext
      omega
    rw [hsame, hline] at hown
    cases hown
    exact Prod.ext hsame (by omega)

theorem inverts_ofText (h : unitLength code.toList ≤ maxWord) : (ofText code).Inverts code where
  start := lineStart_ofText h
  lines := lineStart_isSome_iff h
  position := by
    intro offset
    obtain ⟨start, hline, hstart, hcolumn, -⟩ := (inOrder_ofText code).position_spec offset
    rw [position_line_eq h] at hline
    exact ⟨start, hline, hstart, Prod.ext (position_line_eq h offset) hcolumn⟩
  offset_position := fun _ hword => offset_position_eq code hword
  position_offset := by
    intro line column start hline hword
    refine ⟨by rw [LineIndex.offset, hline, Option.map_some, addWords, Nat.min_eq_left hword], ?_⟩
    rw [position_eq_iff (inOrder_ofText code) column hline]
    have hown := hline
    rw [lineStart_ofText h] at hown
    obtain ⟨text, htext, rfl⟩ := Option.map_eq_some_iff.1 hown
    obtain ⟨hline, -⟩ := List.getElem?_eq_some_iff.1 hline
    cases hlater : (ofText code).lineStart (line + 1) with
    | none =>
        have hend := List.getElem?_eq_none_iff.1 hlater
        exact iff_of_true (by simp) (.inl (by rw [lineCount]; omega))
    | some next =>
        obtain ⟨hnotLast, -⟩ := List.getElem?_eq_some_iff.1 hlater
        rw [lineStart_ofText h] at hlater
        obtain ⟨_, -, rfl⟩ := Option.map_eq_some_iff.1 hlater
        simp only [Option.some.injEq, forall_eq', unitsBefore_succ htext, htext, exists_eq_left',
          lineCount]
        omega
  mono := fun a b hab => notAfter_iff.2 ((inOrder_ofText code).position_mono hab)

/-- In any text an offset lies on a line that does not start after it.  Where the offsets of a text
fit into words, its offsets and positions are inverse. -/
theorem positions_inverse (code : String) :
    ((ofText code).InOrder ∧
      ∀ offset, ∃ start, (ofText code).lineStart ((ofText code).position offset).1 = some start ∧
        start ≤ offset ∧ ((ofText code).position offset).2 = offset - start) ∧
      (unitLength code.toList ≤ maxWord → (ofText code).Inverts code) := by
  refine ⟨⟨inOrder_ofText code, fun offset => ?_⟩, inverts_ofText⟩
  obtain ⟨start, hline, hstart, hcolumn, -⟩ := (inOrder_ofText code).position_spec offset
  exact ⟨start, hline, hstart, hcolumn⟩

/-- With a character of two code units, an empty line and a last line without a line feed. -/
theorem positions_inverse_of_pair :
    unitLength "a😀\n\nb".toList ≤ maxWord ∧ (ofText "a😀\n\nb").Inverts "a😀\n\nb" := by
  have hlength : unitLength "a😀\n\nb".toList ≤ maxWord := by decide
  exact ⟨hlength, (positions_inverse _).2 hlength⟩

end LineIndex

end BundleCoverage
