/-!
# Blank characters

A character is blank when it has the Unicode property White_Space: twenty-five
characters, of which the ASCII ones are tab, line feed, vertical tab, form feed,
carriage return and space.  `trim` takes blanks away from both ends of a text, and what
stood before it are the blanks at the start (`takeWhile_append_trim`).
-/

namespace BundleCoverage.Text

/-- The Unicode property White_Space. -/
def isBlank (c : Char) : Bool :=
  let n := c.toNat
  (0x9 ≤ n && n ≤ 0xD) || n == 0x20 || n == 0x85 || n == 0xA0 || n == 0x1680
    || (0x2000 ≤ n && n ≤ 0x200A) || n == 0x2028 || n == 0x2029 || n == 0x202F
    || n == 0x205F || n == 0x3000

/-- A text without its leading characters of a class. -/
def trimStart (drop : Char → Bool) (text : List Char) : List Char := text.dropWhile drop

/-- A text without its trailing characters of a class. -/
def trimEnd (drop : Char → Bool) (text : List Char) : List Char :=
  (text.reverse.dropWhile drop).reverse

/-- A text without the blanks around it. -/
def trim (text : List Char) : List Char := trimEnd isBlank (trimStart isBlank text)

/-! ## Trimmed texts -/

theorem trimEnd_cons {drop : Char → Bool} {c : Char} (hc : drop c = false)
    (text : List Char) : trimEnd drop (c :: text) = c :: trimEnd drop text := by
  rw [trimEnd, trimEnd, List.reverse_cons, List.dropWhile_append]
  split
  · next hall =>
    rw [List.isEmpty_iff.1 hall, List.dropWhile_cons_of_neg (by simp [hc])]
    rfl
  · rw [List.reverse_append]
    rfl

/-- What stands before a text of which something is left is left, too. -/
theorem trimEnd_append {drop : Char → Bool} {text : List Char} (h : trimEnd drop text ≠ [])
    (before : List Char) : trimEnd drop (before ++ text) = before ++ trimEnd drop text := by
  have hstop : (text.reverse.dropWhile drop).isEmpty = false := by
    rw [List.isEmpty_eq_false_iff, ← List.reverse_ne_nil_iff]
    exact h
  rw [trimEnd, List.reverse_append, List.dropWhile_append, hstop]
  simp [trimEnd]

/-- Behind what is left of a text stand characters of the class only. -/
theorem exists_trimEnd_append (drop : Char → Bool) (text : List Char) :
    ∃ behind, trimEnd drop text ++ behind = text ∧ ∀ c ∈ behind, drop c = true := by
  refine ⟨(text.reverse.takeWhile drop).reverse, ?_, ?_⟩
  · rw [trimEnd, ← List.reverse_append, List.takeWhile_append_dropWhile, List.reverse_reverse]
  · intro c hc
    exact List.all_eq_true.1 List.all_takeWhile c (List.mem_reverse.1 hc)

/-- A text that is not blank starts with a character that is not blank when it is trimmed. -/
theorem exists_trim_eq_cons {text : List Char} (h : text.dropWhile isBlank ≠ []) :
    ∃ c rest, isBlank c = false ∧ trim text = c :: rest := by
  obtain ⟨c, rest, hdrop⟩ := List.exists_cons_of_ne_nil h
  have hfirst := List.head?_dropWhile_not isBlank text
  rw [hdrop] at hfirst
  have hc : isBlank c = false := by simpa using hfirst
  exact ⟨c, trimEnd isBlank rest, hc, by rw [trim, trimStart, hdrop, trimEnd_cons hc]⟩

/-- Without the blanks at its end, a text that is not blank is the blanks at its start and what is
left when it is trimmed. -/
theorem takeWhile_append_trim {text : List Char} (h : text.dropWhile isBlank ≠ []) :
    text.takeWhile isBlank ++ trim text = trimEnd isBlank text := by
  obtain ⟨c, rest, -, htrim⟩ := exists_trim_eq_cons h
  have hleft : trimEnd isBlank (text.dropWhile isBlank) ≠ [] := by
    rw [← trimStart, ← trim, htrim]
    exact List.cons_ne_nil c rest
  rw [trim, trimStart, ← trimEnd_append hleft, List.takeWhile_append_dropWhile]

end BundleCoverage.Text
