import BundleCoverage.Proofs.StableSorting
import BundleCoverage.Proofs.Sweeping

/-!
# Counts of the innermost ranges

The sweep over the ranges of a script gives each offset the count of the last range around it, in
the order in which the ranges are taken (`CountIndex.lookup_sweep`).  As sorting is stable, ranges
with the same offsets keep the order in which they are given (`CountIndex.pairwise_sorted`), so the
last range can be told from its offsets and its place in the list (`CountIndex.IsLastAround`).

For ranges that nest or lie apart this is the innermost range, and of equal ranges the last
(`CountIndex.IsInnermostAround`).
-/

namespace BundleCoverage

/-! ## Ranges around an offset -/

namespace CoverageRange

variable {a b : CoverageRange}

/-- Whether each offset of a range is one of another. -/
def Within (a b : CoverageRange) : Prop := ∀ offset, a.contains offset → b.contains offset

/-- Whether no offset is one of both ranges. -/
def Apart (a b : CoverageRange) : Prop := ∀ offset, a.contains offset → ¬ b.contains offset

/-- Whether two ranges nest or lie apart. -/
def NestedOrApart (a b : CoverageRange) : Prop := a.Within b ∨ b.Within a ∨ a.Apart b

/-- A range that is not empty lies within another just if its ends do. -/
theorem within_iff {offset : Nat} (h : a.contains offset) :
    a.Within b ↔
      b.startOffset.toNat ≤ a.startOffset.toNat ∧ a.endOffset.toNat ≤ b.endOffset.toNat := by
  rw [contains_iff] at h
  constructor
  · intro hwithin
    have hfirst := contains_iff.1 (hwithin a.startOffset.toNat (contains_iff.2 (by omega)))
    have hlast := contains_iff.1 (hwithin (a.endOffset.toNat - 1) (contains_iff.2 (by omega)))
    omega
  · intro hends o ho
    rw [contains_iff] at ho ⊢
    omega

theorem NestedOrApart.symm (h : a.NestedOrApart b) : b.NestedOrApart a := by
  rcases h with h | h | h
  · exact .inr (.inl h)
  · exact .inl h
  · exact .inr (.inr fun o hb ha => h o ha hb)

end CoverageRange

namespace CountIndex

open CoverageRange

/-! ## The order of ranges -/

theorem outerFirst_iff {a b : CoverageRange} :
    outerFirst a b ↔
      a.startOffset.toNat < b.startOffset.toNat ∨
        a.startOffset.toNat = b.startOffset.toNat ∧ b.endOffset.toNat ≤ a.endOffset.toNat := by
  simp [outerFirst, ← UInt32.toNat_inj]

theorem outerFirst_trans (a b c : CoverageRange) (hab : outerFirst a b) (hbc : outerFirst b c) :
    outerFirst a c := by
  rw [outerFirst_iff] at *
  omega

theorem outerFirst_total (a b : CoverageRange) : (outerFirst a b || outerFirst b a) = true := by
  rw [Bool.or_eq_true, outerFirst_iff, outerFirst_iff]
  omega

/-- Whether a range with its place in a list comes before another: it starts earlier, or at the
same offset and ends later, or has the same offsets and an earlier place. -/
def ComesBefore (a b : CoverageRange × Nat) : Prop :=
  a.1.startOffset.toNat < b.1.startOffset.toNat ∨
    a.1.startOffset.toNat = b.1.startOffset.toNat ∧
      (b.1.endOffset.toNat < a.1.endOffset.toNat ∨
        a.1.endOffset.toNat = b.1.endOffset.toNat ∧ a.2 < b.2)

theorem comesBefore_iff {a b : CoverageRange} {i j : Nat} :
    ComesBefore (a, i) (b, j) ↔
      a.startOffset.toNat < b.startOffset.toNat ∨
        a.startOffset.toNat = b.startOffset.toNat ∧
          (b.endOffset.toNat < a.endOffset.toNat ∨
            a.endOffset.toNat = b.endOffset.toNat ∧ i < j) := Iff.rfl

/-- Whether the range at a place of a list is the last of those around an offset. -/
structure IsLastAround (ranges : List CoverageRange) (offset place : Nat) (r : CoverageRange) :
    Prop where
  /-- The range is at the place. -/
  here : ranges[place]? = some r
  /-- It lies around the offset. -/
  around : r.contains offset
  /-- The others around the offset come before it. -/
  last : ∀ other r', ranges[other]? = some r' → r'.contains offset → other ≠ place →
    ComesBefore (r', other) (r, place)

/-- Whether the range at a place of a list is the innermost of those around an offset, and the last
of those that are equal to it. -/
structure IsInnermostAround (ranges : List CoverageRange) (offset place : Nat)
    (r : CoverageRange) : Prop where
  /-- The range is at the place. -/
  here : ranges[place]? = some r
  /-- It lies around the offset. -/
  around : r.contains offset
  /-- It lies within each of those around the offset. -/
  within : ∀ r' ∈ ranges, r'.contains offset → r.Within r'
  /-- None of those at later places lies within it. -/
  later : ∀ other r', ranges[other]? = some r' → r'.contains offset → place < other →
    ¬ r'.Within r

/-! ## Ranges in order -/

/-- The ranges that are not empty, with their places. -/
def placed (ranges : List CoverageRange) : List (CoverageRange × Nat) :=
  ranges.zipIdx.filter (!·.1.isEmpty)

/-- The same in the order in which they are swept. -/
def sorted (ranges : List CoverageRange) : List (CoverageRange × Nat) :=
  (placed ranges).mergeSort fun a b => outerFirst a.1 b.1

theorem mem_placed {ranges : List CoverageRange} {p : CoverageRange × Nat} :
    p ∈ placed ranges ↔ ranges[p.2]? = some p.1 ∧ p.1.isEmpty = false := by
  rw [placed, List.mem_filter, List.mem_zipIdx_iff_getElem?, Bool.not_eq_true']

theorem pairwise_placed (ranges : List CoverageRange) : (placed ranges).Pairwise (·.2 < ·.2) :=
  (pairwise_zipIdx ranges).filter _

theorem mem_sorted {ranges : List CoverageRange} {p : CoverageRange × Nat} :
    p ∈ sorted ranges ↔ ranges[p.2]? = some p.1 ∧ p.1.isEmpty = false := by
  rw [sorted, List.mem_mergeSort, mem_placed]

theorem map_sorted (ranges : List CoverageRange) :
    (sorted ranges).map (·.1) = (ranges.filter (!·.isEmpty)).mergeSort outerFirst := by
  have hplaced : (placed ranges).map (·.1) = ranges.filter (!·.isEmpty) := by
    have hmap := List.filter_map (f := Prod.fst) (p := fun r : CoverageRange => !r.isEmpty)
      (l := ranges.zipIdx)
    rw [List.zipIdx_map_fst] at hmap
    exact hmap.symm
  rw [sorted, List.map_mergeSort (s := outerFirst) fun _ _ _ _ => rfl, hplaced]

theorem nodup_placed (ranges : List CoverageRange) : (placed ranges).Nodup :=
  (pairwise_placed ranges).imp fun hlt heq => Nat.ne_of_lt hlt (congrArg Prod.snd heq)

/-- Sorting takes each range before those that it comes before. -/
theorem pairwise_sorted (ranges : List CoverageRange) :
    (sorted ranges).Pairwise ComesBefore := by
  have hstable := pairwise_mergeSort_of_nodup
    (fun a b : CoverageRange × Nat => outerFirst a.1 b.1)
    (fun _ _ _ => outerFirst_trans _ _ _) (fun _ _ => outerFirst_total _ _)
    (nodup_placed ranges) (pairwise_placed ranges)
  refine hstable.imp fun {a b} ⟨hfirst, hplace⟩ => ?_
  rw [outerFirst_iff] at hfirst hplace
  unfold ComesBefore
  omega

/-! ## Counts -/

variable {ranges : List CoverageRange} {offset : Nat}

theorem intervals_ofRanges (ranges : List CoverageRange) :
    (ofRanges ranges).intervals = sweep 0 [] ((sorted ranges).map (·.1)) := by
  rw [map_sorted, ofRanges]

theorem pairwise_start_sorted (ranges : List CoverageRange) :
    ((sorted ranges).map (·.1)).Pairwise (·.startOffset.toNat ≤ ·.startOffset.toNat) := by
  rw [List.pairwise_map]
  refine (pairwise_sorted ranges).imp fun {a b} h => ?_
  unfold ComesBefore at h
  omega

theorem orderedFrom_ofRanges (ranges : List CoverageRange) :
    OrderedFrom 0 (ofRanges ranges).intervals := by
  rw [intervals_ofRanges]
  exact orderedFrom_sweep (pairwise_start_sorted ranges) (fun _ _ => Nat.zero_le _) []

/-- The intervals that start at an offset or before are those in front. -/
theorem countAt_eq_filter (ranges : List CoverageRange) (offset : Nat) :
    (ofRanges ranges).countAt offset
      = (((ofRanges ranges).intervals.filter (·.start ≤ offset)).getLast?.filter
          (offset < ·.stop)).map (·.count) := by
  rw [countAt, lastStarted, (orderedFrom_ofRanges ranges).takeWhile_eq_filter]

/-- The search finds the interval that holds an offset, if there is one. -/
theorem countAt_eq_find? (ranges : List CoverageRange) (offset : Nat) :
    (ofRanges ranges).countAt offset
      = ((ofRanges ranges).intervals.find? (·.contains offset)).map (·.count) := by
  rw [countAt_eq_filter, ← (orderedFrom_ofRanges ranges).lookup_eq, lookup]

/-- The count of an offset is that of the last range around it. -/
theorem countAt_eq (ranges : List CoverageRange) (offset : Nat) :
    (ofRanges ranges).countAt offset
      = ((sorted ranges).reverse.find? (·.1.contains offset)).map (·.1.count.toNat) := by
  have hopen : openCount [] offset = none := rfl
  rw [countAt_eq_find?]
  show lookup (ofRanges ranges).intervals offset = _
  rw [intervals_ofRanges, lookup_sweep (pairwise_start_sorted ranges) (fun _ _ => Nat.zero_le _),
    if_pos (Nat.zero_le _), hopen, Option.or_none, ← List.map_reverse, List.find?_map,
    Option.map_map]
  rfl

theorem find?_sorted_eq_none_iff :
    (sorted ranges).reverse.find? (·.1.contains offset) = none ↔
      ∀ r ∈ ranges, ¬ r.contains offset := by
  rw [List.find?_eq_none]
  constructor
  · intro h r hr hcontains
    obtain ⟨place, hplace⟩ := List.mem_iff_getElem?.1 hr
    exact h (r, place)
      (List.mem_reverse.2 (mem_sorted.2 ⟨hplace, isEmpty_of_contains hcontains⟩)) hcontains
  · intro h p hp
    exact h p.1 (List.mem_of_getElem? (mem_sorted.1 (List.mem_reverse.1 hp)).1)

theorem isLastAround_of_find? {p : CoverageRange × Nat}
    (h : (sorted ranges).reverse.find? (·.1.contains offset) = some p) :
    IsLastAround ranges offset p.2 p.1 := by
  obtain ⟨haround, after, before, hsplit, hafter⟩ := List.find?_eq_some_iff_append.1 h
  have hsorted : sorted ranges = before.reverse ++ p :: after.reverse := by
    rw [← List.reverse_reverse (sorted ranges), hsplit]
    simp
  refine ⟨(mem_sorted.1 (by simp [hsorted])).1, haround, fun other r' hr' hcontains hne => ?_⟩
  have hmem : (r', other) ∈ sorted ranges := mem_sorted.2 ⟨hr', isEmpty_of_contains hcontains⟩
  have horder := pairwise_sorted ranges
  rw [hsorted] at hmem horder
  rcases List.mem_append.1 hmem with hmem | hmem
  · exact (List.pairwise_append.1 horder).2.2 _ hmem p (List.mem_cons_self ..)
  · rcases List.mem_cons.1 hmem with heq | hmem
    · exact absurd (congrArg Prod.snd heq) hne
    · have := hafter _ (List.mem_reverse.1 hmem)
      simp [hcontains] at this

/-- Two ranges are not both the last. -/
theorem IsLastAround.unique {place place' : Nat} {r r' : CoverageRange}
    (h : IsLastAround ranges offset place r) (h' : IsLastAround ranges offset place' r') :
    r = r' := by
  by_cases hplace : place = place'
  · have := h.here
    rw [hplace, h'.here] at this
    exact (Option.some.inj this).symm
  · have hbefore := h'.last place r h.here h.around hplace
    have hafter := h.last place' r' h'.here h'.around (Ne.symm hplace)
    rw [comesBefore_iff] at hbefore hafter
    omega

theorem countAt_eq_some_iff {count : Nat} :
    (ofRanges ranges).countAt offset = some count ↔
      ∃ place r, IsLastAround ranges offset place r ∧ count = r.count.toNat := by
  rw [countAt_eq]
  constructor
  · intro h
    obtain ⟨p, hp, rfl⟩ := Option.map_eq_some_iff.1 h
    exact ⟨p.2, p.1, isLastAround_of_find? hp, rfl⟩
  · rintro ⟨place, r, hlast, rfl⟩
    cases hfind : (sorted ranges).reverse.find? (·.1.contains offset) with
    | none =>
        have hnone := find?_sorted_eq_none_iff.1 hfind r (List.mem_of_getElem? hlast.here)
        exact absurd hlast.around hnone
    | some p => rw [Option.map_some, (isLastAround_of_find? hfind).unique hlast]

/-! ## Ranges that nest or lie apart -/

theorem IsInnermostAround.isLastAround {place : Nat} {r : CoverageRange}
    (h : IsInnermostAround ranges offset place r) : IsLastAround ranges offset place r := by
  refine ⟨h.here, h.around, fun other r' hr' hcontains hne => ?_⟩
  have hends := (within_iff h.around).1 (h.within r' (List.mem_of_getElem? hr') hcontains)
  rw [comesBefore_iff]
  by_contra hnot
  -- then the two are equal, and the other one has the later place
  exact h.later other r' hr' hcontains (by omega) ((within_iff hcontains).2 (by omega))

theorem nestedOrApart_of_pairwise (h : ranges.Pairwise NestedOrApart) {place other : Nat}
    {r r' : CoverageRange} (hr : ranges[place]? = some r) (hr' : ranges[other]? = some r')
    (hne : other ≠ place) : r.NestedOrApart r' := by
  obtain ⟨hplace, rfl⟩ := List.getElem?_eq_some_iff.1 hr
  obtain ⟨hother, rfl⟩ := List.getElem?_eq_some_iff.1 hr'
  rcases Nat.lt_or_gt_of_ne hne with hlt | hlt
  · exact (List.pairwise_iff_getElem.1 h other place hother hplace hlt).symm
  · exact List.pairwise_iff_getElem.1 h place other hplace hother hlt

theorem IsLastAround.isInnermostAround {place : Nat} {r : CoverageRange}
    (h : IsLastAround ranges offset place r) (hnested : ranges.Pairwise NestedOrApart) :
    IsInnermostAround ranges offset place r := by
  refine ⟨h.here, h.around, fun r' hmem hcontains => ?_,
    fun other r' hr' hcontains hlt hwithin => ?_⟩
  · obtain ⟨other, hr'⟩ := List.mem_iff_getElem?.1 hmem
    by_cases hplace : other = place
    · rw [hplace, h.here] at hr'
      cases hr'
      exact fun _ ho => ho
    · have hbefore := h.last other r' hr' hcontains hplace
      rw [comesBefore_iff] at hbefore
      rcases nestedOrApart_of_pairwise hnested h.here hr' hplace with hin | hout | hapart
      · exact hin
      · rw [within_iff hcontains] at hout
        rw [within_iff h.around]
        omega
      · exact absurd hcontains (hapart offset h.around)
  · have hbefore := h.last other r' hr' hcontains (Nat.ne_of_gt hlt)
    rw [within_iff hcontains] at hwithin
    rw [comesBefore_iff] at hbefore
    omega

/-- An offset has a count just if a range lies around it.  It is that of the last range around it,
by start, the outer first, and then as they are given.  If the ranges nest or lie apart, this is the
innermost range, and of equal ranges the last.  The search looks at the last of the intervals that
start at the offset or before, and finds the one that holds the offset. -/
theorem countAt_ofRanges (ranges : List CoverageRange) (offset : Nat) :
    ((ofRanges ranges).countAt offset = none ↔ ∀ r ∈ ranges, ¬ r.contains offset) ∧
      (∀ count, (ofRanges ranges).countAt offset = some count ↔
        ∃ place r, IsLastAround ranges offset place r ∧ count = r.count.toNat) ∧
      (ranges.Pairwise NestedOrApart → ∀ count,
        (ofRanges ranges).countAt offset = some count ↔
          ∃ place r, IsInnermostAround ranges offset place r ∧ count = r.count.toNat) ∧
      (ofRanges ranges).countAt offset
        = (((ofRanges ranges).intervals.filter (·.start ≤ offset)).getLast?.filter
            (offset < ·.stop)).map (·.count) ∧
      (ofRanges ranges).countAt offset
        = ((ofRanges ranges).intervals.find? (·.contains offset)).map (·.count) := by
  refine ⟨?_, fun count => countAt_eq_some_iff, fun hnested count => ?_,
    countAt_eq_filter ranges offset, countAt_eq_find? ranges offset⟩
  · rw [countAt_eq, Option.map_eq_none_iff, find?_sorted_eq_none_iff]
  · rw [countAt_eq_some_iff]
    constructor
    · rintro ⟨place, r, hlast, hcount⟩
      exact ⟨place, r, hlast.isInnermostAround hnested, hcount⟩
    · rintro ⟨place, r, hinner, hcount⟩
      exact ⟨place, r, hinner.isLastAround, hcount⟩

/-- A function with a block that is reported twice, another block and an empty range. -/
def nested : List CoverageRange :=
  [⟨0, 20, 1⟩, ⟨5, 15, 2⟩, ⟨8, 8, 9⟩, ⟨5, 15, 7⟩, ⟨16, 18, 4⟩]

theorem pairwise_nested : nested.Pairwise NestedOrApart := by
  simp only [nested, List.pairwise_cons, List.forall_mem_cons, List.not_mem_nil, false_implies,
    implies_true, List.Pairwise.nil, and_true, NestedOrApart, Within, Apart, contains_iff]
  grind

theorem isInnermostAround_nested : IsInnermostAround nested 10 3 ⟨5, 15, 7⟩ := by
  have houter : ∀ r ∈ nested, r.contains 10 → r.startOffset.toNat ≤ 5 ∧ 15 ≤ r.endOffset.toNat := by
    decide
  have hafter : ∀ r ∈ nested.drop 4, ¬ r.contains 10 := by decide
  refine ⟨rfl, by decide, fun r hr hcontains => ?_, fun other r hr hcontains hlt => ?_⟩
  · have hcontained : CoverageRange.contains ⟨5, 15, 7⟩ 10 := by decide
    exact (within_iff hcontained).2 (houter r hr hcontains)
  · have hdrop : (nested.drop 4)[other - 4]? = some r := by
      rw [List.getElem?_drop, Nat.add_sub_cancel' hlt, hr]
    exact absurd hcontains (hafter r (List.mem_of_getElem? hdrop))

/-- The block has the count that was reported last. -/
theorem countAt_nested :
    nested.Pairwise NestedOrApart ∧ IsInnermostAround nested 10 3 ⟨5, 15, 7⟩ ∧
      (ofRanges nested).countAt 10 = some 7 := by
  have hcount := ((countAt_ofRanges nested 10).2.2.1 pairwise_nested 7).2
    ⟨3, ⟨5, 15, 7⟩, isInnermostAround_nested, rfl⟩
  exact ⟨pairwise_nested, isInnermostAround_nested, hcount⟩

end CountIndex

end BundleCoverage
