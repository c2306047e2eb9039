import BundleCoverage.Proofs.CodeLines
import BundleCoverage.Proofs.LinePositions
import BundleCoverage.Proofs.Sources

/-!
# Lines with code in the line index

The lines with code and the line index cut a text into lines apart from each other: the former
without the carriage returns at the ends of lines, the latter behind each line feed.  Both number
the lines alike.  A line with code stands in the text with the text above and below it and the
blanks around its code (`exists_parts`), and the index leads from its number and first column to
the first character of its code and back (`LineParts.offset_eq`, `LineParts.position_eq`).  So a
script that is its own source tells about a line what its ranges say on this line
(`codeLines_linesUp`).
-/

namespace BundleCoverage

open Text

/-! ## A line taken apart -/

/-- A line of a text that is not blank, taken apart. -/
structure LineParts (text : List Char) where
  /-- The text above the line. -/
  above : List Char
  /-- The blanks at the start of the line. -/
  indent : List Char
  /-- What stands between the blanks. -/
  body : List Char
  /-- The blanks at the end of the line. -/
  tail : List Char
  /-- The text below, the line feed of the line included. -/
  below : List Char
  /-- The parts make up the text. -/
  text_eq : text = above ++ (indent ++ body ++ tail) ++ below
  /-- The line starts the text or stands behind a line feed. -/
  above_ends : ∀ c ∈ above.getLast?, c = '\n'
  /-- No line feed stands in the line. -/
  unbroken : '\n' ∉ indent ++ body ++ tail
  /-- The line ends the text or stands before a line feed. -/
  below_starts : ∀ c ∈ below.head?, c = '\n'
  /-- The start of the line is blank. -/
  indent_blank : ∀ c ∈ indent, isBlank c = true
  /-- The end of the line is blank. -/
  tail_blank : ∀ c ∈ tail, isBlank c = true
  /-- The first character between the blanks is not blank. -/
  first : ∃ c ∈ body.head?, isBlank c = false
  /-- The last character between the blanks is not blank. -/
  last : ∃ c ∈ body.getLast?, isBlank c = false

namespace LineParts

/-- The number of the line, from zero. -/
def number {text : List Char} (p : LineParts text) : Nat := p.above.count '\n'

/-- The offset of the first character that is not blank. -/
def offset {text : List Char} (p : LineParts text) : Nat := unitLength (p.above ++ p.indent)

/-- The number, from one, and the columns between the blanks. -/
def codeLine {text : List Char} (p : LineParts text) : CodeLine :=
  ⟨p.number + 1, unitLength p.indent, unitLength (p.indent ++ p.body)⟩

theorem start_lt_stop {text : List Char} (p : LineParts text) :
    p.codeLine.start < p.codeLine.stop := by
  obtain ⟨c, hc, -⟩ := p.first
  obtain ⟨rest, hbody⟩ := List.head?_eq_some_iff.1 hc
  have hwidth : 0 < unitWidth c := by
    rw [unitWidth]
    split <;> omega
  have hstop : unitLength (p.indent ++ p.body)
      = unitLength p.indent + (unitWidth c + unitLength rest) := by
    rw [hbody, unitLength_append, unitLength]
  simp only [codeLine]
  omega

end LineParts

/-! ## Line feeds around a line -/

theorem feedsFrom_append (offset : Nat) (before after : List Char) :
    feedsFrom offset (before ++ after)
      = feedsFrom offset before ++ feedsFrom (offset + unitLength before) after := by
  induction before generalizing offset with
  | nil => rfl
  | cons c before ih =>
      rw [List.cons_append, feedsFrom, feedsFrom, ih, unitLength, Nat.add_assoc]
      by_cases hfeed : c = '\n' <;> simp [hfeed]

theorem bounds_of_mem_feedsFrom {offset feed : Nat} {text : List Char}
    (h : feed ∈ feedsFrom offset text) : offset ≤ feed ∧ feed < offset + unitLength text := by
  obtain ⟨before, after, rfl, rfl⟩ := mem_feedsFrom.1 h
  have hwidth : unitWidth '\n' = 1 := by decide
  rw [unitLength_append, unitLength, hwidth]
  omega

namespace LineParts

variable {code : String} (p : LineParts code.toList)

/-- The line feeds of a script stand above a line and below it. -/
theorem lineFeeds_eq :
    lineFeeds code = feedsFrom 0 p.above
      ++ feedsFrom (unitLength (p.above ++ (p.indent ++ p.body ++ p.tail))) p.below := by
  have hnone : feedsFrom (unitLength p.above) (p.indent ++ p.body ++ p.tail) = [] := by
    rw [← List.length_eq_zero_iff, length_feedsFrom, List.count_eq_zero]
    exact p.unbroken
  refine (congrArg (feedsFrom 0) p.text_eq).trans ?_
  rw [feedsFrom_append, feedsFrom_append, Nat.zero_add, Nat.zero_add, hnone, List.append_nil]

/-- The line feeds before the code of a line are those above the line. -/
theorem countP_lineFeeds : (lineFeeds code).countP (· < p.offset) = p.number := by
  have habove : (feedsFrom 0 p.above).countP (· < p.offset) = p.number := by
    rw [number, ← length_feedsFrom 0 p.above, List.countP_eq_length]
    intro feed hfeed
    have hbounds := bounds_of_mem_feedsFrom hfeed
    rw [offset, unitLength_append]
    exact decide_eq_true (by omega)
  rw [p.lineFeeds_eq, List.countP_append, habove, Nat.add_eq_left, List.countP_eq_zero]
  intro feed hfeed
  have hbounds := bounds_of_mem_feedsFrom hfeed
  simp only [unitLength_append] at hbounds
  simp only [decide_eq_true_eq, offset, unitLength_append]
  omega

/-- A line starts behind the text above it. -/
theorem lineStart_number (h : unitLength code.toList ≤ maxWord) :
    (LineIndex.ofText code).lineStart p.number = some (unitLength p.above) := by
  have hends := p.above_ends
  rw [LineIndex.lineStart, LineIndex.starts_ofText h, p.lineFeeds_eq, number]
  rcases List.eq_nil_or_concat' p.above with habove | ⟨before, c, habove⟩
  · rw [habove]
    rfl
  · rw [habove] at hends ⊢
    obtain rfl : c = '\n' := hends c (by simp)
    have hlength : (feedsFrom 0 before).length = before.count '\n' := length_feedsFrom 0 before
    have hstart : unitLength (before ++ ['\n']) = unitLength before + 1 := by
      rw [unitLength_append]
      rfl
    -- the line starts behind the last line feed above it
    have hlast : feedsFrom 0 (before ++ ['\n']) = feedsFrom 0 before ++ [unitLength before] := by
      rw [feedsFrom_append, Nat.zero_add]
      rfl
    rw [hlast, List.count_append, List.count_singleton_self, List.getElem?_cons_succ,
      List.getElem?_map, ← hlength, List.append_assoc, List.getElem?_append_right (Nat.le_refl _),
      Nat.sub_self, hstart]
    rfl

/-- The offset of the first column of the code of a line. -/
theorem offset_eq (h : unitLength code.toList ≤ maxWord) :
    (LineIndex.ofText code).offset p.number (unitLength p.indent) = some p.offset := by
  have hword : unitLength p.above + unitLength p.indent ≤ maxWord := by
    have hlength := congrArg unitLength p.text_eq
    simp only [unitLength_append] at hlength
    omega
  rw [LineIndex.offset, p.lineStart_number h, Option.map_some, addWords, Nat.min_eq_left hword,
    offset, unitLength_append]

theorem position_eq (h : unitLength code.toList ≤ maxWord) :
    (LineIndex.ofText code).position p.offset = (p.number, unitLength p.indent) := by
  obtain ⟨start, hline, -, hposition⟩ := (LineIndex.inverts_ofText h).position p.offset
  rw [p.countP_lineFeeds, p.lineStart_number h] at hline
  cases hline
  rw [hposition, p.countP_lineFeeds, offset, unitLength_append, Nat.add_sub_cancel_left]

end LineParts

theorem LineIndex.InOrder.position_inj {index : LineIndex} (h : index.InOrder) {a b : Nat}
    (hab : index.position a = index.position b) : a = b := by
  obtain ⟨start, hline, hstart, hcolumn, -⟩ := h.position_spec a
  obtain ⟨start', hline', hstart', hcolumn', -⟩ := h.position_spec b
  rw [hab, hline'] at hline
  cases hline
  rw [hab] at hcolumn
  omega

/-! ## Lines with code -/

/-- A line that is not blank is the blanks at its start, what is left when it is trimmed and the
blanks at its end. -/
theorem exists_trim_append {line : List Char} (h : line.dropWhile isBlank ≠ []) :
    ∃ tail, line.takeWhile isBlank ++ trim line ++ tail = line ∧ ∀ c ∈ tail, isBlank c = true := by
  rw [takeWhile_append_trim h]
  exact exists_trimEnd_append isBlank line

theorem exists_getLast?_trim {line : List Char} (h : line.dropWhile isBlank ≠ []) :
    ∃ c ∈ (trim line).getLast?, isBlank c = false := by
  obtain ⟨first, rest, -, htrim⟩ := exists_trim_eq_cons h
  have hlast := List.head?_dropWhile_not isBlank (line.dropWhile isBlank).reverse
  rw [← List.getLast?_reverse, ← trimEnd, ← trimStart, ← trim] at hlast
  rw [htrim] at hlast ⊢
  rw [List.getLast?_cons] at hlast ⊢
  exact ⟨_, rfl, by simpa using hlast⟩

/-- A line with code stands in its text. -/
theorem exists_parts {code : String} {l : CodeLine} (h : l ∈ codeLines code) :
    ∃ p : LineParts code.toList, p.codeLine = l := by
  obtain ⟨n, line, hline, hcode, rfl⟩ := CodeLine.exists_of_mem_among h
  obtain ⟨ending, hpiece, hreturn⟩ := exists_of_getElem?_lines hline
  obtain ⟨above, below, htext, hcount, hends, hstarts⟩ := exists_of_getElem?_split hpiece
  obtain ⟨tail, hparts, htail⟩ := exists_trim_append hcode
  obtain ⟨first, rest, hfirst, htrim⟩ := exists_trim_eq_cons hcode
  -- the carriage return that the index leaves on the line is one of its blanks
  have hpiece' : line ++ ending = line.takeWhile isBlank ++ trim line ++ (tail ++ ending) := by
    rw [← List.append_assoc, hparts]
  have htail' : ∀ c ∈ tail ++ ending, isBlank c = true := by
    intro c hc
    rcases List.mem_append.1 hc with hc | hc
    · exact htail c hc
    · rw [hreturn c hc]
      decide
  have hindent : ∀ c ∈ line.takeWhile isBlank, isBlank c = true :=
    fun c hc => List.all_eq_true.1 List.all_takeWhile c hc
  have hunbroken := (mem_split (List.mem_of_getElem? hpiece)).1
  rw [hpiece'] at htext hunbroken
  have hhead : first ∈ (trim line).head? := by simp [htrim]
  refine ⟨⟨above, line.takeWhile isBlank, trim line, tail ++ ending, below, htext, hends, hunbroken,
    hstarts, hindent, htail', ⟨first, hhead, hfirst⟩, exists_getLast?_trim hcode⟩, ?_⟩
  simp only [LineParts.codeLine, LineParts.number, CodeLine.ofLine, takeWhile_append_trim hcode,
    hcount, Nat.add_comm]

/-! ## What a script says about its lines -/

namespace ResolvedScript

/-- A finding about a line is that of a line with code. -/
theorem mem_ownFindings_iff (s : ResolvedScript) (e : Entry) {path : String}
    {text : Option String} {n start stop count : Nat} :
    ⟨path, text, .line n start stop count⟩ ∈ s.ownFindings e ↔
      (path = s.path ∧ text = some s.code) ∧ ⟨n, start, stop⟩ ∈ codeLines s.code ∧
        ∃ offset, (LineIndex.ofText s.code).offset (n - 1) start = some offset ∧
          (CountIndex.ofRanges e.ranges).countAt offset = some count := by
  rw [ownFindings, List.mem_append, List.mem_cons, List.mem_filterMap, List.mem_flatMap]
  simp only [ownLine?, Option.bind_eq_bind, Option.bind_eq_some_iff]
  constructor
  · rintro ((hpresence | ⟨l, hl, offset, hoffset, k, hcount, hfinding⟩) | ⟨f, -, hf⟩)
    · cases hpresence
    · cases hfinding
      exact ⟨⟨rfl, rfl⟩, hl, offset, hoffset, hcount⟩
    · obtain ⟨r, spot, -, hcall | hblock⟩ := FunctionCoverage.mem_findings hf
      · cases hcall
      · cases hblock
  · rintro ⟨⟨rfl, rfl⟩, hl, offset, hoffset, hcount⟩
    exact .inl (.inr ⟨⟨n, start, stop⟩, hl, offset, hoffset, count, hcount, rfl⟩)

end ResolvedScript

/-- The lines with code of a text are lines of its line index, and a script that is its own source
tells about them only. -/
structure LinesUp (code : String) : Prop where
  /-- The numbers ascend. -/
  ascends : (codeLines code).Pairwise (·.line < ·.line)
  /-- A line with code has a number from one and some columns, and stands in the text.  The index
  leads from its number and first column to the first character that is not blank and back. -/
  stands : ∀ l ∈ codeLines code, 1 ≤ l.line ∧ l.start < l.stop ∧
    ∃ p : LineParts code.toList, p.codeLine = l ∧
      (LineIndex.ofText code).offset (l.line - 1) l.start = some p.offset ∧
      (LineIndex.ofText code).position p.offset = (l.line - 1, l.start)
  /-- What a script says about lines is the count at an offset on the line, for each line with code
  where there is one. -/
  counts : ∀ (s : ResolvedScript) (e : Entry), s.code = code →
    ∀ path text n start stop count,
      ⟨path, text, .line n start stop count⟩ ∈ s.ownFindings e ↔
        (path = s.path ∧ text = some code) ∧ ⟨n, start, stop⟩ ∈ codeLines code ∧
          ∃ offset, (LineIndex.ofText code).position offset = (n - 1, start) ∧
            (CountIndex.ofRanges e.ranges).countAt offset = some count

/-- In a text whose offsets fit into words, the lines with code line up with the line index. -/
theorem codeLines_linesUp {code : String} (h : unitLength code.toList ≤ maxWord) :
    LinesUp code where
  ascends := CodeLine.among_ascends 1 false _
  stands := by
    intro l hl
    obtain ⟨p, rfl⟩ := exists_parts hl
    exact ⟨Nat.le_add_left .., p.start_lt_stop, p, rfl, p.offset_eq h, p.position_eq h⟩
  counts := by
    rintro s e rfl path text n start stop count
    rw [s.mem_ownFindings_iff e]
    refine and_congr_right fun _ => and_congr_right fun hl => exists_congr fun offset => ?_
    obtain ⟨p, hp⟩ := exists_parts hl
    cases hp
    refine and_congr_left fun _ => ?_
    constructor
    · intro hoffset
      obtain rfl : p.offset = offset := Option.some.inj ((p.offset_eq h).symm.trans hoffset)
      exact p.position_eq h
    · intro hposition
      obtain rfl : p.offset = offset :=
        (LineIndex.inOrder_ofText s.code).position_inj ((p.position_eq h).trans hposition.symm)
      exact p.offset_eq h

/-- A line indented by a tab that ends in a carriage return, with a comment of two code units for
one character, and code behind a line comment. -/
theorem codeLines_linesUp_of_comments :
    unitLength "\t/* 😀 */ f() \r\n\n// c\n  g()".toList ≤ maxWord ∧
      codeLines "\t/* 😀 */ f() \r\n\n// c\n  g()" = [⟨1, 1, 13⟩, ⟨4, 2, 5⟩] ∧
      LinesUp "\t/* 😀 */ f() \r\n\n// c\n  g()" := by
  have hlength : unitLength "\t/* 😀 */ f() \r\n\n// c\n  g()".toList ≤ maxWord := by decide
  exact ⟨hlength, by decide, codeLines_linesUp hlength⟩

end BundleCoverage
