import BundleCoverage.Proofs.Inside
import BundleCoverage.Scope.ServerFilter

/-!
# Scripts of the build output

The names of a path are what stands between its slashes, as it is spelled.  A slash in front of a
path has the empty name before it, and one at its end has the empty name behind it.  So has a slash
with another one behind it, and a point is a name like any other.

A script belongs to a directory of the build if the names of the build directory and of the
directory in it occur one after the other among the names of its path, with a name behind them
(`ServerFilter.InOutput`).  The filter looks for the text of these names with a slash behind it, so a
name can only be taken for another one at its start: the first name of the build directory may be the
end of a longer name (`ServerFilter.InLookalike`).  That of an absolute directory is empty, so this
is the end of any name.  These scripts and those of the build output are the ones that are accepted
(`ServerFilter.accepts_iff_inOutput`).
-/

namespace BundleCoverage

namespace Text

/-! ## Searching -/

theorem isInfix_iff {needle text : List Char} : isInfix needle text = true ↔ needle <:+: text := by
  rw [isInfix]
  induction text with
  | nil => simp [cut?]
  | cons c text ih =>
      rw [cut?, List.infix_cons_iff, ← ih]
      cases hstart : stripPrefix? needle (c :: text) with
      | some after =>
          have hbegins : needle <+: c :: text := ⟨after, (stripPrefix?_eq_some_iff.1 hstart).symm⟩
          simp [hbegins]
      | none =>
          have hbegins : ¬ needle <+: c :: text := by
            rintro ⟨after, hafter⟩
            rw [← hafter, stripPrefix?_append] at hstart
            cases hstart
          simp [hbegins]

/-! ## Names that occur in a path -/

/-- Some names occur one after the other among others, with at least one name behind them.  Empty
names and points count as names on both sides. -/
def OccurIn (names path : List (List Char)) : Prop :=
  ∃ before after, path = before ++ (names ++ after) ∧ after ≠ []

/-- Some names occur like that if the first of them is made longer at its start. -/
def OccurLongerIn (names path : List (List Char)) : Prop :=
  ∃ first rest more, names = first :: rest ∧ more ≠ [] ∧ OccurIn ((more ++ first) :: rest) path

theorem join_append_cons (sep : Char) (more first : List Char) (rest : List (List Char)) :
    join sep ((more ++ first) :: rest) = more ++ join sep (first :: rest) := by
  cases rest with
  | nil => rfl
  | cons next rest =>
      have hne : next :: rest ≠ [] := List.cons_ne_nil _ _
      rw [join_cons sep (more ++ first) hne, join_cons sep first hne, List.append_assoc]

/-- A text in front of another makes the first piece longer, or adds pieces before it as well. -/
theorem exists_split_append {sep : Char} {text first : List Char} {rest : List (List Char)}
    (h : split sep text = first :: rest) (start : List Char) :
    ∃ before more, split sep (start ++ text) = before ++ (more ++ first) :: rest := by
  induction start with
  | nil => exact ⟨[], [], h⟩
  | cons c start ih =>
      obtain ⟨before, more, hsplit⟩ := ih
      rw [List.cons_append, split, hsplit]
      by_cases hc : c = sep
      · exact ⟨[] :: before, more, by rw [if_pos hc, List.cons_append]⟩
      · rw [if_neg hc]
        cases before with
        | nil => exact ⟨[], c :: more, rfl⟩
        | cons piece before => exact ⟨(c :: piece) :: before, more, rfl⟩

/-- A text with a separator behind it occurs where its pieces occur, or where they do with the first
one made longer. -/
theorem infix_iff_occurIn {sep : Char} {needle text : List Char} :
    needle ++ [sep] <:+: text ↔
      OccurIn (split sep needle) (split sep text) ∨
        OccurLongerIn (split sep needle) (split sep text) := by
  obtain ⟨first, rest, hneedle⟩ := List.exists_cons_of_ne_nil (split_ne_nil sep needle)
  constructor
  · rintro ⟨start, stop, rfl⟩
    obtain ⟨before, more, hsplit⟩ := exists_split_append hneedle start
    have hpieces : split sep (start ++ (needle ++ [sep]) ++ stop)
        = before ++ (((more ++ first) :: rest) ++ split sep stop) := by
      rw [← List.append_assoc, List.append_assoc, List.singleton_append, split_append_sep, hsplit,
        List.append_assoc]
    rw [hpieces, hneedle]
    by_cases hmore : more = []
    · subst hmore
      exact .inl ⟨before, _, rfl, split_ne_nil sep stop⟩
    · exact .inr ⟨first, rest, more, rfl, hmore, before, _, rfl, split_ne_nil sep stop⟩
  · intro h
    have hoccur : ∃ more, OccurIn ((more ++ first) :: rest) (split sep text) := by
      rw [hneedle] at h
      rcases h with h | ⟨_, _, more, hcons, -, h⟩
      · exact ⟨[], h⟩
      · cases hcons
        exact ⟨more, h⟩
    obtain ⟨more, before, after, htext, hafter⟩ := hoccur
    have hjoin : join sep (((more ++ first) :: rest) ++ after)
        = more ++ (needle ++ [sep] ++ join sep after) := by
      rw [join_append sep (by simp) hafter, join_append_cons, ← hneedle, join_split]
      simp
    rw [← join_split sep text, htext]
    cases before with
    | nil => exact ⟨more, join sep after, by rw [List.nil_append, hjoin, List.append_assoc]⟩
    | cons piece before =>
        refine ⟨join sep (piece :: before) ++ sep :: more, join sep after, ?_⟩
        rw [join_append sep (by simp) (by simp), hjoin]
        simp

end Text

namespace ServerFilter

open Text

/-- The names of a build directory.  Backslashes are slashes here, and points with a slash in front
and slashes at the end do not count. -/
def buildNames (buildDirectory : String) : List (List Char) :=
  split '/' (trimEnd (· = '/') (trimPieces ['.', '/'] (replaceChar '\\' '/' buildDirectory.toList)))

/-- The names of a directory in the build.  Slashes around it do not count. -/
def subdirectoryNames (subdirectory : String) : List (List Char) :=
  split '/' (trimEnd (· = '/') (trimStart (· = '/') subdirectory.toList))

/-- Whether a URL is that of a file with a path, backslashes being slashes, that has none of the
excluded texts in it. -/
def Considers (f : ServerFilter) (url : String) (path : List Char) : Prop :=
  ∃ file, scriptFile? url = some file ∧ path = replaceChar '\\' '/' file.text.toList ∧
    ∀ p ∈ f.excludePatterns, ¬ p.toList <:+: path

/-- Whether a script is a file of the build output: below one of the directories of the build.  Its
path is taken as it is spelled, so an empty name between two slashes and a point keep names apart,
and an empty name at its end stands for a file. -/
def InOutput (f : ServerFilter) (url buildDirectory : String) : Prop :=
  ∃ path, f.Considers url path ∧ ∃ s ∈ f.subdirectories,
    OccurIn (buildNames buildDirectory ++ subdirectoryNames s) (split '/' path)

/-- Whether a script is a file below one of the directories of what looks like the build, its first
name being only the end of a name. -/
def InLookalike (f : ServerFilter) (url buildDirectory : String) : Prop :=
  ∃ path, f.Considers url path ∧ ∃ s ∈ f.subdirectories,
    OccurLongerIn (buildNames buildDirectory ++ subdirectoryNames s) (split '/' path)

theorem isInfix_needle_iff {buildDirectory s : String} {path : List Char} :
    isInfix (needle buildDirectory s) path = true ↔
      OccurIn (buildNames buildDirectory ++ subdirectoryNames s) (split '/' path) ∨
        OccurLongerIn (buildNames buildDirectory ++ subdirectoryNames s) (split '/' path) := by
  rw [isInfix_iff, needle, infix_iff_occurIn, split_append_sep, ← buildNames, ← subdirectoryNames]

/-- The scripts that are accepted are those of the build output, and those of what looks like it. -/
theorem accepts_iff_inOutput (f : ServerFilter) (url buildDirectory : String) :
    f.accepts url buildDirectory = true ↔
      f.InOutput url buildDirectory ∨ f.InLookalike url buildDirectory := by
  have hexcluded (path : List Char) :
      (!(f.excludePatterns.any fun p => isInfix p.toList path)) = true ↔
        ∀ p ∈ f.excludePatterns, ¬ p.toList <:+: path := by
    simp [isInfix_iff]
  rw [accepts]
  cases hfile : scriptFile? url with
  | none =>
      -- there is no path to look at
      simp [InOutput, InLookalike, Considers, hfile]
  | some file =>
      simp only [Bool.and_eq_true, hexcluded, List.any_eq_true, isInfix_needle_iff]
      simp only [InOutput, InLookalike, Considers, hfile, Option.some.injEq]
      constructor
      · rintro ⟨hnone, s, hs, h⟩
        exact h.imp (fun h => ⟨_, ⟨file, rfl, rfl, hnone⟩, s, hs, h⟩)
          fun h => ⟨_, ⟨file, rfl, rfl, hnone⟩, s, hs, h⟩
      · rintro (⟨_, ⟨_, rfl, rfl, hnone⟩, s, hs, h⟩ | ⟨_, ⟨_, rfl, rfl, hnone⟩, s, hs, h⟩)
        · exact ⟨hnone, s, hs, .inl h⟩
        · exact ⟨hnone, s, hs, .inr h⟩

/-- A script of another directory whose name ends like that of the build directory is accepted. -/
theorem accepts_lookalike :
    ({} : ServerFilter).accepts "file:///app/foo.next/server/app/page.js" ".next" = true ∧
      ¬ ({} : ServerFilter).InOutput "file:///app/foo.next/server/app/page.js" ".next" := by
  refine ⟨by decide +kernel, ?_⟩
  rintro ⟨path, ⟨file, hfile, rfl, -⟩, s, -, before, after, hsplit, -⟩
  have hpath : scriptFile? "file:///app/foo.next/server/app/page.js"
      = some ⟨"/app/foo.next/server/app/page.js", true⟩ := by decide +kernel
  obtain rfl := Option.some.inj (hfile.symm.trans hpath)
  have hnames : buildNames ".next" = [".next".toList] := by decide +kernel
  have hmem : ".next".toList ∈ split '/' (replaceChar '\\' '/'
      "/app/foo.next/server/app/page.js".toList) := by
    rw [hsplit, hnames]
    simp
  revert hmem
  decide +kernel

end ServerFilter

end BundleCoverage
