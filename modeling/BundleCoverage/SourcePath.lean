import BundleCoverage.Text.Search

/-!
# Canonical source paths

Source maps, inspectors and browsers name the same file in different ways.
`SourcePath.normalize` folds them into one path, relative to the project, under which
the coverage of the file is collected.

First it strips what stands in front of a path: a URL scheme with the part up to the
next slash, the namespace of the bundler's own modules, and a leading `./`, over and
over until none is left.  Then it starts the path at its first `src` directory and
turns backslashes into slashes.  A path without such a directory is left as it is.
-/

namespace BundleCoverage.SourcePath

open Text

/-- The namespace the bundler puts in front of first-party modules. -/
def moduleNamespace : List Char := "_N_E/".toList

/-- Whether a text is a URL scheme: a letter, then at least one more letter, digit, plus,
minus or point.  A single letter is a drive. -/
def isScheme : List Char → Bool
  | [] => false
  | c :: rest =>
    c.isAlpha && !rest.isEmpty
      && rest.all fun d => d.isAlphanum || d = '+' || d = '-' || d = '.'

/-- The path after a URL scheme and the part up to the next slash. -/
def stripScheme? (path : List Char) : Option (List Char) :=
  match cut? "://".toList path with
  | none => none
  | some (scheme, rest) =>
    if isScheme scheme then some (((cut? ['/'] rest).map (·.2)).getD []) else none

/-- The path without one of the things that can stand in front of it. -/
def strip? (path : List Char) : Option (List Char) :=
  stripScheme? path <|> stripPrefix? moduleNamespace path <|> stripPrefix? "./".toList path

theorem length_lt_of_stripScheme? {path rest : List Char} (h : stripScheme? path = some rest) :
    rest.length < path.length := by
  unfold stripScheme? at h
  split at h
  · cases h
  · next scheme after hcut =>
    have hlen := congrArg List.length (eq_append_of_cut? hcut)
    have hsep : "://".toList.length = 3 := by decide
    simp only [List.length_append, hsep] at hlen
    split at h
    · cases h
      cases hs : cut? ['/'] after with
      | none => simp; omega
      | some p =>
        obtain ⟨before, tail⟩ := p
        have := congrArg List.length (eq_append_of_cut? hs)
        simp at this
        simp
        omega
    · cases h

theorem length_lt_of_strip? {path rest : List Char} (h : strip? path = some rest) :
    rest.length < path.length := by
  have hns : moduleNamespace.length = 5 := by decide
  have hdot : "./".toList.length = 2 := by decide
  unfold strip? at h
  cases hs : stripScheme? path with
  | some found =>
    simp only [hs] at h
    cases h
    exact length_lt_of_stripScheme? hs
  | none =>
    cases hn : stripPrefix? moduleNamespace path with
    | some found =>
      simp only [hs, hn] at h
      cases h
      rw [stripPrefix?_eq_some_iff.1 hn, List.length_append, hns]
      omega
    | none =>
      simp only [hs, hn] at h
      have hd : stripPrefix? "./".toList path = some rest := h
      rw [stripPrefix?_eq_some_iff.1 hd, List.length_append, hdot]
      omega

/-- The path without anything that can stand in front of it. -/
def stripAll (path : List Char) : List Char :=
  match _h : strip? path with
  | some rest => stripAll rest
  | none => path
termination_by path.length
decreasing_by exact length_lt_of_strip? _h

/-- What follows the first `src` directory inside a path. -/
def afterSourceDir? : List Char → Option (List Char)
  | [] => none
  | c :: path =>
    stripPrefix? "/src/".toList (c :: path) <|> stripPrefix? "\\src\\".toList (c :: path)
      <|> afterSourceDir? path

/-- What follows the first `src` directory of a path. -/
def belowSource? (path : List Char) : Option (List Char) :=
  stripPrefix? "src/".toList path <|> stripPrefix? "src\\".toList path <|> afterSourceDir? path

/-- The canonical form of a path. -/
def normalizeChars (path : List Char) : List Char :=
  let path := stripAll path
  match belowSource? path with
  | some rest => "src/".toList ++ replaceChar '\\' '/' rest
  | none => path

/-- The canonical form of a path. -/
def normalize (path : String) : String := String.ofList (normalizeChars path.toList)

end BundleCoverage.SourcePath
