import BundleCoverage.Text.Split

/-!
# Lines

A line ends in a line feed, or in a carriage return and a line feed.  The last line may
lack its end, and the empty text after a last line end is no line.
-/

namespace BundleCoverage.Text

/-- A text without a carriage return at its end. -/
def dropReturn (text : List Char) : List Char :=
  if text.getLast? = some '\r' then text.dropLast else text

/-- The lines whose pieces between line feeds are given. -/
def linesOfPieces : List (List Char) → List (List Char)
  | [] => []
  | [last] => if last = [] then [] else [last]
  | piece :: next :: pieces => dropReturn piece :: linesOfPieces (next :: pieces)

/-- The lines of a text, without their ends. -/
def lines (text : List Char) : List (List Char) := linesOfPieces (split '\n' text)

example : lines ['a', '\r', '\n', '\n', 'b', '\r'] = [['a'], [], ['b', '\r']] := by decide

theorem exists_dropReturn_append (text : List Char) :
    ∃ ending, dropReturn text ++ ending = text ∧ ∀ c ∈ ending, c = '\r' := by
  rw [dropReturn]
  split
  · next hlast =>
    obtain ⟨before, rfl⟩ := List.getLast?_eq_some_iff.1 hlast
    exact ⟨['\r'], by rw [List.dropLast_concat], fun c hc => List.mem_singleton.1 hc⟩
  · exact ⟨[], List.append_nil text, fun c hc => absurd hc List.not_mem_nil⟩

theorem exists_of_getElem?_linesOfPieces {pieces : List (List Char)} {line : List Char} {n : Nat}
    (h : (linesOfPieces pieces)[n]? = some line) :
    ∃ ending, pieces[n]? = some (line ++ ending) ∧ ∀ c ∈ ending, c = '\r' := by
  fun_induction linesOfPieces pieces generalizing n with
  | case1 => cases h
  | case2 => cases h
  | case3 last hlast =>
      exact ⟨[], by rw [List.append_nil, h], fun c hc => absurd hc List.not_mem_nil⟩
  | case4 piece next pieces ih =>
      cases n with
      | zero =>
          cases h
          obtain ⟨ending, hpiece, hreturn⟩ := exists_dropReturn_append piece
          exact ⟨ending, congrArg some hpiece.symm, hreturn⟩
      | succ n => exact ih h

/-- A line is the piece of its number between line feeds, but for the carriage return at its end. -/
theorem exists_of_getElem?_lines {text line : List Char} {n : Nat}
    (h : (lines text)[n]? = some line) :
    ∃ ending, (split '\n' text)[n]? = some (line ++ ending) ∧ ∀ c ∈ ending, c = '\r' :=
  exists_of_getElem?_linesOfPieces h

end BundleCoverage.Text
