import BundleCoverage.Script.CodeLines

/-!
# The numbers and columns of the lines with code

The lines with code come by ascending number, from one.  So no number stands for two of them,
and what is said about the line of a number is said about the first one found
(`filterMap_codeLines`).  Their columns do not end before they start, since code is not blank
(`bounds_of_mem_codeLines`).
-/

namespace BundleCoverage

open Text

namespace CodeLine

/-- A line of blanks carries no code. -/
theorem code_judge_of_blank {line : List Char} (h : line.dropWhile isBlank = [])
    (inComment : Bool) : (judge inComment line).code = false := by
  have htrim : trim line = [] := by
    rw [trim, trimStart, h]
    rfl
  rw [judge, htrim]
  cases inComment with
  | false => rfl
  | true => rfl

/-- A line with code is one of the lines with its number, and not one of blanks. -/
theorem exists_of_mem_among {number : Nat} {inComment : Bool} {lines : List (List Char)}
    {l : CodeLine} (h : l ∈ among number inComment lines) :
    ∃ n line, lines[n]? = some line ∧ line.dropWhile isBlank ≠ []
      ∧ l = ofLine (number + n) line := by
  induction lines generalizing number inComment with
  | nil => cases h
  | cons line lines ih =>
      have hlater {inComment : Bool} (hrest : l ∈ among (number + 1) inComment lines) :
          ∃ n own, (line :: lines)[n]? = some own ∧ own.dropWhile isBlank ≠ []
            ∧ l = ofLine (number + n) own := by
        obtain ⟨n, own, hown, hcode, hl⟩ := ih hrest
        refine ⟨n + 1, own, hown, hcode, ?_⟩
        rw [hl, Nat.add_assoc, Nat.add_comm 1]
      rw [among] at h
      split at h
      · next hcode =>
          cases h with
          | head =>
              refine ⟨0, line, rfl, fun hblank => ?_, rfl⟩
              rw [code_judge_of_blank hblank] at hcode
              cases hcode
          | tail _ hrest => exact hlater hrest
      · exact hlater h

theorem le_of_mem_among {number : Nat} {inComment : Bool} {lines : List (List Char)}
    {l : CodeLine} (h : l ∈ among number inComment lines) : number ≤ l.line := by
  obtain ⟨n, line, -, -, rfl⟩ := exists_of_mem_among h
  exact Nat.le_add_right number n

theorem among_ascends (number : Nat) (inComment : Bool) (lines : List (List Char)) :
    (among number inComment lines).Pairwise (·.line < ·.line) := by
  induction lines generalizing number inComment with
  | nil => exact List.Pairwise.nil
  | cons line lines ih =>
      rw [among]
      split
      · refine List.pairwise_cons.2 ⟨?_, ih _ _⟩
        intro l hl
        exact le_of_mem_among hl
      · exact ih _ _

theorem start_le_stop_of_mem_among {number : Nat} {inComment : Bool} {lines : List (List Char)}
    {l : CodeLine} (h : l ∈ among number inComment lines) : l.start ≤ l.stop := by
  obtain ⟨n, line, -, hcode, rfl⟩ := exists_of_mem_among h
  rw [ofLine, ← takeWhile_append_trim hcode, unitLength_append]
  exact Nat.le_add_right ..

end CodeLine

/-- A line with code has a number from one, and its columns do not end before they start. -/
theorem bounds_of_mem_codeLines {text : String} {l : CodeLine} (h : l ∈ codeLines text) :
    1 ≤ l.line ∧ l.start ≤ l.stop :=
  ⟨CodeLine.le_of_mem_among h, CodeLine.start_le_stop_of_mem_among h⟩

/-! ## Lines by their numbers -/

/-- In lines by ascending number, a number is that of the first line found for it. -/
theorem filterMap_line {α : Type} {lines : List CodeLine}
    (h : lines.Pairwise (·.line < ·.line)) (n : Nat) (say? : CodeLine → Option α) :
    (lines.filterMap fun l => if l.line = n then say? l else none)
      = ((lines.find? (·.line = n)).bind say?).toList := by
  induction lines with
  | nil => rfl
  | cons l lines ih =>
      obtain ⟨hfirst, hrest⟩ := List.pairwise_cons.1 h
      by_cases hn : l.line = n
      · have hothers : lines.filterMap (fun l => if l.line = n then say? l else none) = [] := by
          refine List.filterMap_eq_nil_iff.2 ?_
          intro l' hl'
          -- later numbers are larger
          have hlt : l.line < l'.line := hfirst l' hl'
          exact if_neg (by omega)
        rw [List.filterMap_cons, hothers, List.find?_cons_of_pos (by simpa using hn),
          Option.bind_some, if_pos hn]
        cases say? l with
        | none => rfl
        | some a => rfl
      · rw [List.filterMap_cons, if_neg hn, List.find?_cons_of_neg (by simpa using hn)]
        exact ih hrest

/-- What is said about a line with code, given its number. -/
theorem filterMap_codeLines {α : Type} (text : String) (n : Nat) (say? : CodeLine → Option α) :
    ((codeLines text).filterMap fun l => if l.line = n then say? l else none)
      = (((codeLines text).find? (·.line = n)).bind say?).toList :=
  filterMap_line (CodeLine.among_ascends 1 false _) n say?

end BundleCoverage
