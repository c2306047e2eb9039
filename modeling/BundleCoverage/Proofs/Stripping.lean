import BundleCoverage.Proofs.CanonicalPaths
import Mathlib.Data.List.Infix

/-!
# What stripping leaves

Stripping a path ends after finitely many steps (`Strips`).  Every step leaves an end of the
path, and the last one leaves an end with nothing in front of it: no scheme, no namespace of
modules, no `./` (`IsBare`).

A path is anchored where its first `src` directory is found, and one is found whenever there is
one (`HasSourceDirectory`).  So a canonical path is of one of two forms (`normalize_form`).  It
is `src/` and a path without backslashes, or it is a bare end of the path it comes from, without
a `src` directory.
-/

namespace BundleCoverage

namespace Text

theorem stripPrefix?_eq_none_iff {start text : List Char} :
    stripPrefix? start text = none ↔ ¬start <+: text := by
  rw [Option.eq_none_iff_forall_ne_some]
  constructor
  · rintro h ⟨rest, rfl⟩
    exact h rest (stripPrefix?_append start rest)
  · intro h rest hrest
    exact h ⟨rest, (stripPrefix?_eq_some_iff.1 hrest).symm⟩

/-- A text is cut behind a part that lacks the first character of the needle. -/
theorem cut?_append {c : Char} {before : List Char} (h : c ∉ before) (needle after : List Char) :
    cut? (c :: needle) (before ++ (c :: needle ++ after)) = some (before, after) := by
  induction before with
  | nil =>
      show cut? (c :: needle) (c :: (needle ++ after)) = some ([], after)
      have hfound : stripPrefix? (c :: needle) (c :: (needle ++ after)) = some after :=
        stripPrefix?_append (c :: needle) after
      simp only [cut?, hfound]
  | cons b before ih =>
      obtain ⟨hb, hbefore⟩ := not_or.1 (mt List.mem_cons.2 h)
      have hskip : stripPrefix? (c :: needle) (b :: (before ++ (c :: needle ++ after))) = none := by
        simp [stripPrefix?, hb]
      rw [List.cons_append]
      simp only [cut?, hskip, ih hbefore, Option.map_some]

theorem notMem_replaceChar {old new : Char} (h : old ≠ new) (text : List Char) :
    old ∉ replaceChar old new text := by
  intro hmem
  obtain ⟨c, -, hc⟩ := List.mem_map.1 hmem
  split at hc
  · exact h hc.symm
  · next hne => exact hne hc

end Text

namespace SourcePath

open Text

/-! ## Schemes -/

theorem notMem_of_isScheme {scheme : List Char} (h : isScheme scheme) {c : Char}
    (hc : ¬(c.isAlphanum ∨ c = '+' ∨ c = '-' ∨ c = '.')) : c ∉ scheme := by
  intro hmem
  cases scheme with
  | nil => cases hmem
  | cons first rest =>
      simp only [isScheme, Bool.and_eq_true, List.all_eq_true, Bool.or_eq_true,
        decide_eq_true_eq] at h
      rcases List.mem_cons.1 hmem with rfl | hrest
      · exact hc (.inl (by simp [Char.isAlphanum, h.1.1]))
      · exact hc (by simpa only [or_assoc] using h.2 c hrest)

/-- A scheme has no colon, so the first `://` behind it is its own. -/
theorem cut?_scheme {scheme : List Char} (h : isScheme scheme) (rest : List Char) :
    cut? "://".toList (scheme ++ ("://".toList ++ rest)) = some (scheme, rest) :=
  cut?_append (notMem_of_isScheme h (by decide)) "//".toList rest

theorem stripScheme?_eq_none_iff {path : List Char} :
    stripScheme? path = none ↔
      ∀ scheme rest, isScheme scheme → path ≠ scheme ++ ("://".toList ++ rest) := by
  constructor
  · rintro h scheme rest hscheme rfl
    rw [stripScheme?, cut?_scheme hscheme] at h
    simp only [hscheme, if_true] at h
    cases h
  · intro h
    rw [stripScheme?]
    split
    · rfl
    · next scheme rest hcut =>
      have hpath := eq_append_of_cut? hcut
      rw [List.append_assoc] at hpath
      have hscheme : ¬isScheme scheme := fun hscheme => h scheme rest hscheme hpath
      rw [if_neg hscheme]

/-! ## Bare paths -/

/-- A path with nothing to strip. -/
structure IsBare (path : List Char) : Prop where
  /-- It does not start with a scheme. -/
  scheme : ∀ scheme rest, isScheme scheme → path ≠ scheme ++ ("://".toList ++ rest)
  /-- It does not start with the namespace of modules. -/
  moduleNamespace : ¬moduleNamespace <+: path
  /-- It does not start with a point and a slash. -/
  point : ¬"./".toList <+: path

theorem strip?_eq_none_iff {path : List Char} : strip? path = none ↔ IsBare path := by
  simp only [strip?, Option.orElse_eq_orElse, Option.orElse_eq_or, Option.or_eq_none_iff,
    stripScheme?_eq_none_iff, stripPrefix?_eq_none_iff]
  constructor
  · rintro ⟨hscheme, hnamespace, hpoint⟩
    exact ⟨hscheme, hnamespace, hpoint⟩
  · intro h
    exact ⟨h.scheme, h.moduleNamespace, h.point⟩

theorem isSuffix_of_stripScheme? {path rest : List Char} (h : stripScheme? path = some rest) :
    rest <:+ path := by
  unfold stripScheme? at h
  split at h
  · cases h
  · next scheme after hcut =>
    have hafter : after <:+ path := ⟨_, (eq_append_of_cut? hcut).symm⟩
    split at h
    · cases h
      refine List.IsSuffix.trans ?_ hafter
      cases hslash : cut? ['/'] after with
      | none => exact List.nil_suffix
      | some parts => exact ⟨_, (eq_append_of_cut? hslash).symm⟩
    · cases h

/-- What a step leaves is an end of the path. -/
theorem isSuffix_of_strip? {path rest : List Char} (h : strip? path = some rest) :
    rest <:+ path := by
  simp only [strip?, Option.orElse_eq_orElse, Option.orElse_eq_or, Option.or_eq_some_iff,
    stripPrefix?_eq_some_iff] at h
  rcases h with hscheme | ⟨-, hnamespace | ⟨-, hpoint⟩⟩
  · exact isSuffix_of_stripScheme? hscheme
  · exact ⟨_, hnamespace.symm⟩
  · exact ⟨_, hpoint.symm⟩

/-! ## Runs of steps -/

/-- Stripping a path leads to another in a number of steps. -/
inductive Strips : Nat → List Char → List Char → Prop where
  /-- No step is made. -/
  | done (path : List Char) : Strips 0 path path
  /-- A step is made first. -/
  | step {n : Nat} {path next last : List Char} (h : strip? path = some next)
      (hnext : Strips n next last) : Strips (n + 1) path last

theorem Strips.isSuffix {n : Nat} {path last : List Char} (h : Strips n path last) :
    last <:+ path := by
  induction h with
  | done path => exact List.suffix_refl path
  | step h _ ih => exact ih.trans (isSuffix_of_strip? h)

/-- A step makes the path shorter, so there are no more steps than characters. -/
theorem Strips.add_length_le {n : Nat} {path last : List Char} (h : Strips n path last) :
    n + last.length ≤ path.length := by
  induction h with
  | done path => simp
  | step h _ ih =>
      have hshorter := length_lt_of_strip? h
      omega

theorem exists_strips (path : List Char) : ∃ n, Strips n path (stripAll path) := by
  fun_induction stripAll path with
  | case1 path next h ih =>
      obtain ⟨n, hn⟩ := ih
      exact ⟨n + 1, .step h hn⟩
  | case2 path h => exact ⟨0, .done path⟩

/-! ## Source directories -/

/-- Whether a path has a `src` directory, in front or inside. -/
def HasSourceDirectory (path : List Char) : Prop :=
  "src/".toList <+: path ∨ "src\\".toList <+: path ∨
    "/src/".toList <:+: path ∨ "\\src\\".toList <:+: path

theorem afterSourceDir?_eq_none_iff {path : List Char} :
    afterSourceDir? path = none ↔
      ¬"/src/".toList <:+: path ∧ ¬"\\src\\".toList <:+: path := by
  induction path with
  | nil => simp [afterSourceDir?]
  | cons c path ih =>
      simp only [afterSourceDir?, Option.orElse_eq_orElse, Option.orElse_eq_or,
        Option.or_eq_none_iff, stripPrefix?_eq_none_iff, ih, List.infix_cons_iff, not_or]
      constructor
      · rintro ⟨hforward, hbackward, hforward', hbackward'⟩
        exact ⟨⟨hforward, hforward'⟩, hbackward, hbackward'⟩
      · rintro ⟨⟨hforward, hforward'⟩, hbackward, hbackward'⟩
        exact ⟨hforward, hbackward, hforward', hbackward'⟩

theorem belowSource?_eq_none_iff {path : List Char} :
    belowSource? path = none ↔ ¬HasSourceDirectory path := by
  simp only [belowSource?, Option.orElse_eq_orElse, Option.orElse_eq_or, Option.or_eq_none_iff,
    stripPrefix?_eq_none_iff, afterSourceDir?_eq_none_iff, HasSourceDirectory, not_or]

/-! ## The canonical form -/

/-- What a path is in its canonical form: below `src` and without backslashes, or a bare end of
the path without a `src` directory. -/
theorem normalizeChars_form (path : List Char) :
    (∃ rest, '\\' ∉ rest ∧ normalizeChars path = "src/".toList ++ rest) ∨
      normalizeChars path <:+ path ∧ IsBare (normalizeChars path) ∧
        ¬HasSourceDirectory (normalizeChars path) := by
  obtain ⟨n, hstrips⟩ := exists_strips path
  cases hbelow : belowSource? (stripAll path) with
  | some rest =>
      refine .inl ⟨replaceChar '\\' '/' rest, notMem_replaceChar (by decide) rest, ?_⟩
      simp only [normalizeChars, hbelow]
  | none =>
      have hsame : normalizeChars path = stripAll path := by simp only [normalizeChars, hbelow]
      rw [hsame]
      exact .inr ⟨hstrips.isSuffix, strip?_eq_none_iff.1 (strip?_stripAll path),
        belowSource?_eq_none_iff.1 hbelow⟩

/-- Normalising ends, a second time it changes nothing, and what it gives is either `src/` with a
path without backslashes, or a bare end of the path without a `src` directory. -/
theorem normalize_form (path : String) :
    normalize (normalize path) = normalize path ∧
    (∃ n ≤ path.length, Strips n path.toList (stripAll path.toList)) ∧
    strip? (stripAll path.toList) = none ∧
    ((∃ rest : String, '\\' ∉ rest.toList ∧ normalize path = "src/" ++ rest) ∨
      (normalize path).toList <:+ path.toList ∧ IsBare (normalize path).toList ∧
        ¬HasSourceDirectory (normalize path).toList) := by
  refine ⟨normalize_normalize path, ?_, strip?_stripAll path.toList, ?_⟩
  · obtain ⟨n, hstrips⟩ := exists_strips path.toList
    have hlength : n + (stripAll path.toList).length ≤ path.length := hstrips.add_length_le
    exact ⟨n, by omega, hstrips⟩
  · rcases normalizeChars_form path.toList with ⟨rest, hrest, hsrc⟩ | hbare
    · refine .inl ⟨String.ofList rest, by rwa [String.toList_ofList], ?_⟩
      rw [normalize, hsrc, String.ofList_append, String.ofList_toList]
    · rw [normalize, String.toList_ofList]
      exact .inr hbare

end SourcePath

end BundleCoverage
