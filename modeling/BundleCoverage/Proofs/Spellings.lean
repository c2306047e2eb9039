import BundleCoverage.Proofs.Stripping

/-!
# Spellings of a source path

A browser, a bundler, an inspector and a disk each spell the path of a source in their own way
(`IsSpelling`).  All spellings of one source have the same canonical form
(`normalize_of_isSpelling`), whatever stands below its `src` directory: the text there may hold
schemes, points, namespaces and further `src` directories.

Directories in front of `src` are passed over one by one.  Some of them are stripped
(`normalizeChars_behind`), the others are skipped in the search for the first `src` directory
(`afterSourceDir?_behind`).
-/

namespace BundleCoverage.SourcePath

open Text

/-! ## Directories in front of `src` -/

/-- A name that a directory in front of `src` may have. -/
structure IsDirectoryName (name : List Char) : Prop where
  ne_src : name ≠ "src".toList
  slash : '/' ∉ name
  backslash : '\\' ∉ name
  colon : ':' ∉ name

instance (name : List Char) : Decidable (IsDirectoryName name) :=
  decidable_of_iff (name ≠ "src".toList ∧ '/' ∉ name ∧ '\\' ∉ name ∧ ':' ∉ name)
    ⟨fun ⟨hsrc, hslash, hbackslash, hcolon⟩ => ⟨hsrc, hslash, hbackslash, hcolon⟩,
      fun h => ⟨h.ne_src, h.slash, h.backslash, h.colon⟩⟩

/-- The path of a source behind some directories. -/
def behind (sep : Char) (names : List (List Char)) (text : List Char) : List Char :=
  [sep].intercalate (names ++ ["src".toList, text])

theorem behind_nil (sep : Char) (text : List Char) :
    behind sep [] text = "src".toList ++ sep :: text := by
  simp [behind]

theorem behind_cons (sep : Char) (name : List Char) (names : List (List Char))
    (text : List Char) :
    behind sep (name :: names) text = name ++ sep :: behind sep names text := by
  rw [behind, List.cons_append, List.intercalate_cons_of_ne_nil (by simp)]
  simp [behind]

theorem isPrefix_of_append_cons {start name rest : List Char} {c : Char}
    (h : start <+: name ++ c :: rest) (hc : c ∉ start) : start <+: name := by
  have hname : name <+: name ++ c :: rest := List.prefix_append name (c :: rest)
  rcases Nat.lt_or_ge name.length start.length with hlong | hshort
  · have hconcat : name ++ [c] <+: name ++ c :: rest := ⟨rest, by simp⟩
    have hinside : name ++ [c] <+: start :=
      List.prefix_of_prefix_length_le hconcat h (by simpa using Nat.succ_le_of_lt hlong)
    exact absurd (hinside.subset (by simp)) hc
  · exact List.prefix_of_prefix_length_le h hname hshort

/-- Two names that end at the same separator are equal. -/
theorem eq_of_isPrefix_append_cons {start name rest : List Char} {c : Char}
    (h : start ++ [c] <+: name ++ c :: rest) (hstart : c ∉ start) (hname : c ∉ name) :
    start = name := by
  obtain ⟨rest', hrest⟩ := h
  have hcut := cut?_append hstart [] rest'
  have hcut' := cut?_append hname [] rest
  rw [List.append_assoc] at hrest
  rw [show start ++ ([c] ++ rest') = name ++ ([c] ++ rest) from hrest, hcut'] at hcut
  cases hcut
  rfl

/-! ## The first `src` directory -/

/-- No `src` directory starts in a text without separators. -/
theorem afterSourceDir?_append {name : List Char} (hslash : '/' ∉ name)
    (hbackslash : '\\' ∉ name) (rest : List Char) :
    afterSourceDir? (name ++ rest) = afterSourceDir? rest := by
  induction name with
  | nil => rfl
  | cons c name ih =>
      obtain ⟨hc, hslash⟩ := not_or.1 (mt List.mem_cons.2 hslash)
      obtain ⟨hc', hbackslash⟩ := not_or.1 (mt List.mem_cons.2 hbackslash)
      simp [afterSourceDir?, stripPrefix?, hc, hc', ih hslash hbackslash]

theorem afterSourceDir?_cons {sep : Char} {path : List Char}
    (h : ¬"src".toList ++ [sep] <+: path) :
    afterSourceDir? (sep :: path) = afterSourceDir? path := by
  have hforward : stripPrefix? "/src/".toList (sep :: path) = none := by
    rw [stripPrefix?_eq_none_iff]
    intro hstarts
    obtain ⟨rfl, hrest⟩ := List.cons_prefix_cons.1 hstarts
    exact h hrest
  have hbackward : stripPrefix? "\\src\\".toList (sep :: path) = none := by
    rw [stripPrefix?_eq_none_iff]
    intro hstarts
    obtain ⟨rfl, hrest⟩ := List.cons_prefix_cons.1 hstarts
    exact h hrest
  rw [afterSourceDir?, hforward, hbackward]
  rfl

/-- The search passes over other directories. -/
theorem afterSourceDir?_behind {sep : Char} (hsep : sep = '/' ∨ sep = '\\')
    {names : List (List Char)} (hnames : ∀ name ∈ names, IsDirectoryName name)
    (text : List Char) : afterSourceDir? (sep :: behind sep names text) = some text := by
  induction names with
  | nil =>
      rw [behind_nil]
      rcases hsep with rfl | rfl
      · simp [afterSourceDir?, stripPrefix?]
      · simp [afterSourceDir?, stripPrefix?]
  | cons name names ih =>
      obtain ⟨hname, hothers⟩ := List.forall_mem_cons.1 hnames
      have hsrc : sep ∉ "src".toList := by rcases hsep with rfl | rfl <;> decide
      have hnotMem : sep ∉ name := by
        rcases hsep with rfl | rfl
        · exact hname.slash
        · exact hname.backslash
      rw [behind_cons, afterSourceDir?_cons, afterSourceDir?_append hname.slash hname.backslash,
        ih hothers]
      intro hstarts
      exact hname.ne_src (eq_of_isPrefix_append_cons hstarts hsrc hnotMem).symm

theorem belowSource?_eq_afterSourceDir? {path : List Char} (hforward : ¬"src/".toList <+: path)
    (hbackward : ¬"src\\".toList <+: path) : belowSource? path = afterSourceDir? path := by
  rw [belowSource?, stripPrefix?_eq_none_iff.2 hforward, stripPrefix?_eq_none_iff.2 hbackward]
  rfl

/-! ## Stripping -/

theorem normalizeChars_of_strip? {path next : List Char} (h : strip? path = some next) :
    normalizeChars path = normalizeChars next := by
  have hstrip : stripAll path = stripAll next := by
    rw [stripAll]
    split
    · next rest hrest =>
      rw [h] at hrest
      cases hrest
      rfl
    · next hnone =>
      rw [h] at hnone
      cases hnone
  rw [normalizeChars, normalizeChars, hstrip]

theorem normalizeChars_of_belowSource? {path rest : List Char} (hbare : IsBare path)
    (hrest : belowSource? path = some rest) :
    normalizeChars path = "src/".toList ++ replaceChar '\\' '/' rest := by
  simp only [normalizeChars, stripAll_of_strip?_eq_none (strip?_eq_none_iff.2 hbare), hrest]

/-- A URL is stripped up to the slash behind its root. -/
theorem strip?_url {scheme root : List Char} (hscheme : isScheme scheme) (hroot : '/' ∉ root)
    (path : List Char) : strip? (scheme ++ ("://".toList ++ (root ++ '/' :: path))) = some path := by
  have hcut : cut? ['/'] (root ++ '/' :: path) = some (root, path) := cut?_append hroot [] path
  rw [strip?, stripScheme?, cut?_scheme hscheme]
  simp only [hscheme, if_true, hcut]
  rfl

/-- A scheme starts with a letter. -/
theorem stripScheme?_cons {c : Char} (hc : c.isAlpha = false) (path : List Char) :
    stripScheme? (c :: path) = none := by
  rw [stripScheme?_eq_none_iff]
  intro scheme rest hscheme heq
  cases scheme with
  | nil => cases hscheme
  | cons first scheme =>
      cases heq
      simp [isScheme, hc] at hscheme

theorem strip?_namespace (path : List Char) : strip? (moduleNamespace ++ path) = some path := by
  have hscheme : stripScheme? (moduleNamespace ++ path) = none := stripScheme?_cons (by decide) _
  rw [strip?, hscheme, stripPrefix?_append]
  rfl

theorem strip?_point (path : List Char) : strip? ("./".toList ++ path) = some path := by
  have hscheme : stripScheme? ("./".toList ++ path) = none := stripScheme?_cons (by decide) _
  have hnamespace : stripPrefix? moduleNamespace ("./".toList ++ path) = none := rfl
  rw [strip?, hscheme, hnamespace, stripPrefix?_append]
  rfl

/-- A directory is bare unless it is the namespace of modules or a point. -/
theorem isBare_directory {name : List Char} (hname : IsDirectoryName name)
    (hnamespace : name ≠ "_N_E".toList) (hpoint : name ≠ ".".toList) (rest : List Char) :
    IsBare (name ++ '/' :: rest) where
  scheme scheme after hscheme heq := by
    have hstarts : scheme ++ [':'] <+: name ++ '/' :: rest :=
      ⟨"//".toList ++ after, by rw [heq, List.append_assoc]; rfl⟩
    have hslash : '/' ∉ scheme ++ [':'] := by
      rw [List.mem_append, not_or]
      exact ⟨notMem_of_isScheme hscheme (by decide), by decide⟩
    have hinside : scheme ++ [':'] <+: name := isPrefix_of_append_cons hstarts hslash
    exact hname.colon (hinside.subset (by simp))
  moduleNamespace hstarts := by
    have hsame : moduleNamespace = "_N_E".toList ++ ['/'] := rfl
    rw [hsame] at hstarts
    exact hnamespace (eq_of_isPrefix_append_cons hstarts (by decide) hname.slash).symm
  point hstarts := hpoint (eq_of_isPrefix_append_cons hstarts (by decide) hname.slash).symm

/-! ## Paths behind directories -/

/-- Directories in front of `src` do not show in a canonical path. -/
theorem normalizeChars_behind {names : List (List Char)}
    (hnames : ∀ name ∈ names, IsDirectoryName name) (text : List Char) :
    normalizeChars (behind '/' names text) = "src/".toList ++ replaceChar '\\' '/' text := by
  induction names with
  | nil =>
      rw [behind_nil]
      exact normalizeChars_src text
  | cons name names ih =>
      obtain ⟨hname, hothers⟩ := List.forall_mem_cons.1 hnames
      rw [behind_cons]
      by_cases hnamespace : name = "_N_E".toList
      · rw [hnamespace]
        exact (normalizeChars_of_strip? (strip?_namespace _)).trans (ih hothers)
      by_cases hpoint : name = ".".toList
      · rw [hpoint]
        exact (normalizeChars_of_strip? (strip?_point _)).trans (ih hothers)
      -- the first directory stays, so the search starts in front of it
      have hbare := isBare_directory hname hnamespace hpoint (behind '/' names text)
      refine normalizeChars_of_belowSource? hbare ?_
      rw [belowSource?_eq_afterSourceDir?, afterSourceDir?_append hname.slash hname.backslash,
        afterSourceDir?_behind (.inl rfl) hothers]
      · intro hstarts
        exact hname.ne_src (eq_of_isPrefix_append_cons hstarts (by decide) hname.slash).symm
      · intro hstarts
        have hinside : "src\\".toList <+: name := isPrefix_of_append_cons hstarts (by decide)
        exact hname.backslash (hinside.subset (by decide))

theorem normalizeChars_rooted {names : List (List Char)}
    (hnames : ∀ name ∈ names, IsDirectoryName name) (text : List Char) :
    normalizeChars ('/' :: behind '/' names text)
      = "src/".toList ++ replaceChar '\\' '/' text := by
  have hbare : IsBare ('/' :: behind '/' names text) := by
    rw [← strip?_eq_none_iff, strip?, stripScheme?_cons (by decide)]
    rfl
  refine normalizeChars_of_belowSource? hbare ?_
  rw [belowSource?_eq_afterSourceDir?, afterSourceDir?_behind (.inl rfl) hnames]
  · intro hstarts
    cases (List.cons_prefix_cons.1 hstarts).1
  · intro hstarts
    cases (List.cons_prefix_cons.1 hstarts).1

/-- Everything that can be stripped has a slash. -/
theorem isBare_of_notMem {path : List Char} (h : '/' ∉ path) : IsBare path where
  scheme scheme rest _ heq := h (by simp [heq])
  moduleNamespace hstarts := h (hstarts.subset (by decide))
  point hstarts := h (hstarts.subset (by decide))

theorem slash_notMem_behind {names : List (List Char)}
    (hnames : ∀ name ∈ names, IsDirectoryName name) {text : List Char} (htext : '/' ∉ text) :
    '/' ∉ behind '\\' names text := by
  induction names with
  | nil => simp [behind_nil, htext]
  | cons name names ih =>
      obtain ⟨hname, hothers⟩ := List.forall_mem_cons.1 hnames
      simp [behind_cons, hname.slash, ih hothers]

theorem normalizeChars_drive {drive : Char} (hdrive : drive.isAlpha) {names : List (List Char)}
    (hnames : ∀ name ∈ names, IsDirectoryName name) {text : List Char} (htext : '/' ∉ text) :
    normalizeChars (drive :: ':' :: '\\' :: behind '\\' names text)
      = "src/".toList ++ replaceChar '\\' '/' text := by
  have hslash : '/' ≠ drive := by
    rintro rfl
    cases hdrive
  have hbackslash : '\\' ≠ drive := by
    rintro rfl
    cases hdrive
  have hbare : IsBare (drive :: ':' :: '\\' :: behind '\\' names text) :=
    isBare_of_notMem (by simp [hslash, slash_notMem_behind hnames htext])
  refine normalizeChars_of_belowSource? hbare ?_
  have hskip : afterSourceDir? ([drive, ':'] ++ '\\' :: behind '\\' names text)
      = afterSourceDir? ('\\' :: behind '\\' names text) :=
    afterSourceDir?_append (by simp [hslash]) (by simp [hbackslash]) _
  rw [belowSource?_eq_afterSourceDir?]
  · exact hskip.trans (afterSourceDir?_behind (.inr rfl) hnames text)
  · intro hstarts
    cases (List.cons_prefix_cons.1 (List.cons_prefix_cons.1 hstarts).2).1
  · intro hstarts
    cases (List.cons_prefix_cons.1 (List.cons_prefix_cons.1 hstarts).2).1

/-! ## Spellings -/

theorem replaceChar_of_notMem {old : Char} {text : List Char} (h : old ∉ text) (new : Char) :
    replaceChar old new text = text := by
  have hsame : ∀ c ∈ text, (if c = old then new else c) = c := by
    intro c hc
    rw [if_neg]
    rintro rfl
    exact h hc
  exact (List.map_congr_left hsame).trans (List.map_id' text)

/-- A character that is not in a text can stand for another and be replaced by it again. -/
theorem replaceChar_back {old new : Char} {text : List Char} (h : new ∉ text) :
    replaceChar new old (replaceChar old new text) = text := by
  have hback : ∀ c ∈ text,
      (if (if c = old then new else c) = new then old else if c = old then new else c) = c := by
    intro c hc
    by_cases hold : c = old
    · simp [hold]
    · have hnew : c ≠ new := by
        rintro rfl
        exact h hc
      simp [hold, hnew]
  rw [replaceChar, replaceChar, List.map_map]
  exact (List.map_congr_left hback).trans (List.map_id' text)

/-- The ways to spell the path of the source `text` below `src`. -/
inductive IsSpelling (text : String) : String → Prop where
  /-- Relative to the project. -/
  | plain : IsSpelling text ("src/" ++ text)
  /-- Relative to the project, with a point. -/
  | point : IsSpelling text ("./src/" ++ text)
  /-- In the namespace of modules. -/
  | bundled : IsSpelling text ("_N_E/./src/" ++ text)
  /-- As a URL of the bundler, with a root for its modules. -/
  | bundlerUrl (root : String) (hroot : '/' ∉ root.toList) :
      IsSpelling text ("webpack://" ++ root ++ "/./src/" ++ text)
  /-- As a URL of the bundler, in the namespace of modules. -/
  | bundledUrl : IsSpelling text ("webpack:///_N_E/./src/" ++ text)
  /-- Relative to a directory below the project. -/
  | above (k : Nat) : IsSpelling text (String.join (List.replicate k "../") ++ "src/" ++ text)
  /-- Absolute. -/
  | absolute (names : List String) (hnames : ∀ name ∈ names, IsDirectoryName name.toList) :
      IsSpelling text ("/" ++ "/".intercalate (names ++ ["src", text]))
  /-- As a URL of a file. -/
  | fileUrl (names : List String) (hnames : ∀ name ∈ names, IsDirectoryName name.toList) :
      IsSpelling text ("file:///" ++ "/".intercalate (names ++ ["src", text]))
  /-- On a drive, with backslashes. -/
  | onDrive (drive : Char) (hdrive : drive.isAlpha) (names : List String)
      (hnames : ∀ name ∈ names, IsDirectoryName name.toList) :
      IsSpelling text (String.singleton drive ++ ":\\" ++
        "\\".intercalate (names ++ ["src", String.ofList (replaceChar '/' '\\' text.toList)]))

theorem toList_join_above (k : Nat) (text : String) :
    (String.join (List.replicate k "../") ++ "src/" ++ text).toList
      = behind '/' (List.replicate k "..".toList) text.toList := by
  induction k with
  | zero => simp [behind_nil]
  | succ k ih =>
      rw [List.replicate_succ, List.replicate_succ, behind_cons, ← ih]
      simp

/-- All spellings of a source have the same canonical form. -/
theorem normalize_of_isSpelling {text path : String} (htext : '\\' ∉ text.toList)
    (h : IsSpelling text path) : normalize path = "src/" ++ text := by
  have hsame : replaceChar '\\' '/' text.toList = text.toList := replaceChar_of_notMem htext '/'
  suffices hchars : normalizeChars path.toList
      = "src/".toList ++ replaceChar '\\' '/' text.toList by
    rw [normalize, hchars, hsame, ← String.toList_append, String.ofList_toList]
  cases h with
  | plain =>
      rw [String.toList_append]
      exact normalizeChars_src text.toList
  | point =>
      have hchars : ("./src/" ++ text).toList = behind '/' [".".toList] text.toList := by
        simp [behind]
      rw [hchars]
      exact normalizeChars_behind (by decide) text.toList
  | bundled =>
      have hchars : ("_N_E/./src/" ++ text).toList
          = behind '/' ["_N_E".toList, ".".toList] text.toList := by simp [behind]
      rw [hchars]
      exact normalizeChars_behind (by decide) text.toList
  | bundlerUrl root hroot =>
      have hchars : ("webpack://" ++ root ++ "/./src/" ++ text).toList
          = "webpack".toList ++ ("://".toList ++ (root.toList ++ '/' ::
            behind '/' [".".toList] text.toList)) := by simp [behind]
      rw [hchars, normalizeChars_of_strip? (strip?_url (by decide) hroot _)]
      exact normalizeChars_behind (by decide) text.toList
  | bundledUrl =>
      have hchars : ("webpack:///_N_E/./src/" ++ text).toList
          = "webpack".toList ++ ("://".toList ++ ([] ++ '/' ::
            behind '/' ["_N_E".toList, ".".toList] text.toList)) := by simp [behind]
      rw [hchars, normalizeChars_of_strip? (strip?_url (by decide) List.not_mem_nil _)]
      exact normalizeChars_behind (by decide) text.toList
  | above k =>
      rw [toList_join_above]
      refine normalizeChars_behind ?_ text.toList
      intro name hname
      rw [List.eq_of_mem_replicate hname]
      decide
  | absolute names hnames =>
      have hchars : ("/" ++ "/".intercalate (names ++ ["src", text])).toList
          = '/' :: behind '/' (names.map String.toList) text.toList := by simp [behind]
      rw [hchars]
      exact normalizeChars_rooted (List.forall_mem_map.2 hnames) text.toList
  | fileUrl names hnames =>
      have hchars : ("file:///" ++ "/".intercalate (names ++ ["src", text])).toList
          = "file".toList ++ ("://".toList ++ ([] ++ '/' ::
            behind '/' (names.map String.toList) text.toList)) := by simp [behind]
      rw [hchars, normalizeChars_of_strip? (strip?_url (by decide) List.not_mem_nil _)]
      exact normalizeChars_behind (List.forall_mem_map.2 hnames) text.toList
  | onDrive drive hdrive names hnames =>
      have hchars : (String.singleton drive ++ ":\\" ++ "\\".intercalate
            (names ++ ["src", String.ofList (replaceChar '/' '\\' text.toList)])).toList
          = drive :: ':' :: '\\' :: behind '\\' (names.map String.toList)
            (replaceChar '/' '\\' text.toList) := by simp [behind]
      have hslash : '/' ∉ replaceChar '/' '\\' text.toList :=
        notMem_replaceChar (by decide) text.toList
      rw [hchars, normalizeChars_drive hdrive (List.forall_mem_map.2 hnames) hslash,
        replaceChar_back htext, hsame]

theorem normalize_of_isSpelling_onDrive :
    '\\' ∉ "a/webpack://_N_E/./src/b.ts".toList ∧
    IsSpelling "a/webpack://_N_E/./src/b.ts"
      "C:\\_N_E\\my src\\src\\a\\webpack:\\\\_N_E\\.\\src\\b.ts" ∧
    normalize "C:\\_N_E\\my src\\src\\a\\webpack:\\\\_N_E\\.\\src\\b.ts"
      = "src/a/webpack://_N_E/./src/b.ts" := by
  have htext : '\\' ∉ "a/webpack://_N_E/./src/b.ts".toList := by decide
  have hspelling : IsSpelling "a/webpack://_N_E/./src/b.ts"
      "C:\\_N_E\\my src\\src\\a\\webpack:\\\\_N_E\\.\\src\\b.ts" :=
    .onDrive 'C' (by decide) ["_N_E", "my src"] (by decide)
  exact ⟨htext, hspelling, normalize_of_isSpelling htext hspelling⟩

end BundleCoverage.SourcePath
