import BundleCoverage.SourceMap.Document

/-!
# Kept once, in the order of first appearance

Names added one by one are the names without their repetitions (`foldl_addName`).  Sources added
one by one are their paths without repetitions, each with the first text that came with it
(`foldl_addSource_eq`).

A member stands no later in the list without repetitions than in the list itself
(`idxOf_eraseDups_le`), so an index that fits a word still does.
-/

namespace BundleCoverage.SourceMap

/-! ## Names -/

theorem foldl_addName_eq (seen names : List String) :
    names.foldl addName seen = seen ++ (names.filter (· ∉ seen)).eraseDups := by
  induction names generalizing seen with
  | nil => simp
  | cons name names ih =>
      rw [List.foldl_cons, ih]
      by_cases hmem : name ∈ seen
      · rw [addName, if_pos hmem, List.filter_cons_of_neg (by simpa using hmem)]
      · have hfilter : names.filter (· ∉ seen ++ [name])
            = (names.filter (· ∉ seen)).filter (!· == name) := by
          rw [List.filter_filter]
          refine List.filter_congr fun other _ => ?_
          by_cases heq : other = name <;> simp [heq]
        rw [addName, if_neg hmem, List.filter_cons_of_pos (by simpa using hmem),
          List.eraseDups_cons, hfilter, List.append_assoc, List.singleton_append]

theorem foldl_addName (names : List String) : names.foldl addName [] = names.eraseDups := by
  have hall : names.filter (· ∉ []) = names := List.filter_eq_self.2 (by simp)
  rw [foldl_addName_eq, hall, List.nil_append]

theorem nodup_addName {names : List String} (h : names.Nodup) (name : String) :
    (addName names name).Nodup := by
  unfold addName
  split
  · exact h
  · next hmem =>
    refine List.nodup_append.2 ⟨h, List.pairwise_singleton _ name, ?_⟩
    rintro a ha b hb rfl
    exact hmem (List.mem_singleton.1 hb ▸ ha)

theorem nodup_foldl_addName {seen : List String} (h : seen.Nodup) (names : List String) :
    (names.foldl addName seen).Nodup := by
  induction names generalizing seen with
  | nil => exact h
  | cons name names ih => exact ih (nodup_addName h name)

/-! ## Places -/

theorem idxOf_foldl_addName {seen : List String} {name : String} (h : name ∈ seen)
    (names : List String) : (names.foldl addName seen).idxOf name = seen.idxOf name := by
  rw [foldl_addName_eq, List.idxOf_append, if_pos h]

theorem idxOf_addName_le (seen : List String) (name : String) :
    (addName seen name).idxOf name ≤ seen.length := by
  unfold addName
  split
  · exact List.idxOf_le_length
  · next hmem => simp [List.idxOf_append, hmem]

theorem length_addName_le (seen : List String) (name : String) :
    (addName seen name).length ≤ seen.length + 1 := by
  unfold addName
  split
  · omega
  · simp

theorem idxOf_foldl_addName_le (seen names : List String) (name : String) :
    (names.foldl addName seen).idxOf name ≤ seen.length + names.idxOf name := by
  induction names generalizing seen with
  | nil => exact Nat.le_trans List.idxOf_le_length (Nat.le_add_right ..)
  | cons other names ih =>
      rw [List.foldl_cons]
      by_cases heq : other = name
      · subst heq
        have hmem : other ∈ addName seen other := by
          unfold addName
          split
          · assumption
          · simp
        rw [idxOf_foldl_addName hmem]
        exact Nat.le_trans (idxOf_addName_le seen other) (Nat.le_add_right ..)
      · have hrest := ih (addName seen other)
        have hlen := length_addName_le seen other
        have hne : (other == name) = false := beq_eq_false_iff_ne.2 heq
        rw [List.idxOf_cons, hne, cond_false]
        omega

/-- A member stands no later in a list without repetitions. -/
theorem idxOf_eraseDups_le (names : List String) (name : String) :
    names.eraseDups.idxOf name ≤ names.idxOf name := by
  have hle := idxOf_foldl_addName_le [] names name
  rw [foldl_addName] at hle
  simpa using hle

/-! ## Sources -/

theorem map_path_addSource (texts : List SourceText) (s : SourceText) :
    (addSource texts s).map (·.path) = addName (texts.map (·.path)) s.path := by
  induction texts with
  | nil => rfl
  | cons t rest ih =>
      rw [addSource]
      by_cases hpath : t.path = s.path
      · rw [if_pos hpath, addName, if_pos (by simp [hpath])]
        rfl
      · rw [if_neg hpath, List.map_cons, ih, List.map_cons, addName, addName]
        by_cases hmem : s.path ∈ rest.map (·.path)
        · rw [if_pos hmem, if_pos (List.mem_cons_of_mem _ hmem)]
        · rw [if_neg hmem, if_neg (by simpa [Ne.symm hpath] using hmem)]
          rfl

theorem map_path_foldl_addSource_eq (seen texts : List SourceText) :
    (texts.foldl addSource seen).map (·.path)
      = (texts.map (·.path)).foldl addName (seen.map (·.path)) := by
  induction texts generalizing seen with
  | nil => rfl
  | cons s texts ih => rw [List.foldl_cons, ih, map_path_addSource, List.map_cons, List.foldl_cons]

/-- The text that a list which holds each path once has for a path. -/
def textAt? (path : String) (texts : List SourceText) : Option String :=
  (texts.find? (·.path = path)).bind (·.content)

/-- The first text that comes with a path. -/
def firstText? (texts : List SourceText) (path : String) : Option String :=
  texts.findSome? fun s => if s.path = path then s.content else none

theorem textAt?_cons (path : String) (t : SourceText) (rest : List SourceText) :
    textAt? path (t :: rest) = if t.path = path then t.content else textAt? path rest := by
  unfold textAt?
  by_cases hpath : t.path = path
  · rw [List.find?_cons_of_pos (by simpa using hpath), if_pos hpath, Option.bind_some]
  · rw [List.find?_cons_of_neg (by simpa using hpath), if_neg hpath]

theorem textAt?_addSource (path : String) (texts : List SourceText) (s : SourceText) :
    textAt? path (addSource texts s)
      = (textAt? path texts).or (if s.path = path then s.content else none) := by
  induction texts with
  | nil =>
      rw [addSource, textAt?_cons]
      rfl
  | cons t rest ih =>
      rw [addSource]
      by_cases hsame : t.path = s.path
      · rw [if_pos hsame, textAt?_cons, textAt?_cons]
        by_cases hpath : t.path = path
        · rw [if_pos hpath, if_pos hpath, if_pos (hsame ▸ hpath)]
          cases t.content <;> rfl
        · rw [if_neg hpath, if_neg hpath, if_neg (hsame ▸ hpath), Option.or_none]
      · rw [if_neg hsame, textAt?_cons, textAt?_cons, ih]
        by_cases hpath : t.path = path
        · rw [if_pos hpath, if_pos hpath, if_neg fun hs => hsame (hpath.trans hs.symm),
            Option.or_none]
        · rw [if_neg hpath, if_neg hpath]

theorem textAt?_foldl_addSource (path : String) (seen texts : List SourceText) :
    textAt? path (texts.foldl addSource seen)
      = (textAt? path seen).or (firstText? texts path) := by
  induction texts generalizing seen with
  | nil => exact (Option.or_none).symm
  | cons s texts ih =>
      rw [List.foldl_cons, ih, textAt?_addSource, Option.or_assoc, firstText?, firstText?,
        List.findSome?_cons]
      cases (if s.path = path then s.content else none) <;> rfl

/-- In a list that holds each path once, every source has the text of its path. -/
theorem eq_map_textAt? {texts : List SourceText} (h : (texts.map (·.path)).Nodup) :
    texts = (texts.map (·.path)).map fun path => ⟨path, textAt? path texts⟩ := by
  induction texts with
  | nil => rfl
  | cons t rest ih =>
      rw [List.map_cons, List.nodup_cons] at h
      obtain ⟨hnew, hrest⟩ := h
      have htail :
          (rest.map (·.path)).map (fun path => SourceText.mk path (textAt? path (t :: rest)))
            = (rest.map (·.path)).map fun path => ⟨path, textAt? path rest⟩ := by
        refine List.map_congr_left fun path hpath => ?_
        rw [textAt?_cons, if_neg fun heq : t.path = path => hnew (heq ▸ hpath)]
      rw [List.map_cons, List.map_cons, htail, ← ih hrest, textAt?_cons, if_pos rfl]

/-- Sources added one by one are the paths without repetitions, each with the first text that
came with it. -/
theorem foldl_addSource_eq (texts : List SourceText) :
    texts.foldl addSource []
      = (texts.map (·.path)).eraseDups.map fun path => ⟨path, firstText? texts path⟩ := by
  have hpaths : (texts.foldl addSource []).map (·.path) = (texts.map (·.path)).eraseDups := by
    rw [map_path_foldl_addSource_eq, List.map_nil, foldl_addName]
  have hnodup : ((texts.foldl addSource []).map (·.path)).Nodup := by
    rw [map_path_foldl_addSource_eq]
    exact nodup_foldl_addName List.nodup_nil _
  rw [eq_map_textAt? hnodup, hpaths]
  refine List.map_congr_left fun path _ => ?_
  rw [textAt?_foldl_addSource]
  rfl

end BundleCoverage.SourceMap
