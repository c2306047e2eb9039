import BundleCoverage.SourcePath

/-!
# Canonical paths

A canonical path is one that normalising leaves as it is.  Normalising a path gives one
(`SourcePath.normalize_normalize`): nothing can be stripped from a path that was stripped, and
nothing from a path that starts at its `src` directory.
-/

namespace BundleCoverage.SourcePath

open Text

theorem strip?_stripAll (path : List Char) : strip? (stripAll path) = none := by
  fun_induction stripAll path with
  | case1 path rest _ ih => exact ih
  | case2 path hnone => exact hnone

theorem stripAll_of_strip?_eq_none {path : List Char} (h : strip? path = none) :
    stripAll path = path := by
  rw [stripAll]
  split
  · next hsome => rw [h] at hsome; cases hsome
  · rfl

/-- What stands in front of `://` in a path from `src` has a slash, so it is no scheme. -/
theorem stripScheme?_src (rest : List Char) : stripScheme? ("src/".toList ++ rest) = none := by
  have hcut : cut? "://".toList ("src/".toList ++ rest)
      = (cut? "://".toList rest).map fun parts => ("src/".toList ++ parts.1, parts.2) := by
    simp [cut?, stripPrefix?, Option.map_map, Function.comp_def]
  rw [stripScheme?, hcut]
  cases cut? "://".toList rest with
  | none => rfl
  | some parts =>
      have hslash : isScheme ("src/".toList ++ parts.1) = false := by simp [isScheme]
      simp only [Option.map_some, hslash, Bool.false_eq_true, if_false]

theorem strip?_src (rest : List Char) : strip? ("src/".toList ++ rest) = none := by
  rw [strip?, stripScheme?_src]
  rfl

theorem belowSource?_src (rest : List Char) :
    belowSource? ("src/".toList ++ rest) = some rest := by
  rw [belowSource?, stripPrefix?_append]
  rfl

/-! ## Canonical forms -/

theorem normalizeChars_src (rest : List Char) :
    normalizeChars ("src/".toList ++ rest) = "src/".toList ++ replaceChar '\\' '/' rest := by
  rw [normalizeChars, stripAll_of_strip?_eq_none (strip?_src rest), belowSource?_src]

theorem normalizeChars_of_stuck {path : List Char} (hstrip : strip? path = none)
    (hbelow : belowSource? path = none) : normalizeChars path = path := by
  rw [normalizeChars, stripAll_of_strip?_eq_none hstrip, hbelow]

/-- A canonical path starts at its `src` directory, or there is nothing to strip from it and
no such directory in it. -/
theorem canonical_cases (path : List Char) :
    (∃ rest, normalizeChars path = "src/".toList ++ replaceChar '\\' '/' rest) ∨
      strip? (normalizeChars path) = none ∧ belowSource? (normalizeChars path) = none := by
  have hstrip := strip?_stripAll path
  rw [normalizeChars]
  cases hbelow : belowSource? (stripAll path) with
  | some rest => exact .inl ⟨rest, rfl⟩
  | none => exact .inr ⟨hstrip, hbelow⟩

theorem replaceChar_replaceChar (old new : Char) (text : List Char) :
    replaceChar old new (replaceChar old new text) = replaceChar old new text := by
  simp only [replaceChar, List.map_map]
  refine List.map_congr_left fun c _ => ?_
  by_cases h : c = old
  · simp [h]
  · simp [h]

/-- Normalising a path a second time changes nothing. -/
theorem normalize_normalize (path : String) : normalize (normalize path) = normalize path := by
  have hchars : normalizeChars (normalizeChars path.toList) = normalizeChars path.toList := by
    rcases canonical_cases path.toList with ⟨rest, hsrc⟩ | ⟨hstrip, hbelow⟩
    · rw [hsrc, normalizeChars_src, replaceChar_replaceChar]
    · exact normalizeChars_of_stuck hstrip hbelow
  simp only [normalize, String.toList_ofList, hchars]

end BundleCoverage.SourcePath
