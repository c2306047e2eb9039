import BundleCoverage.Proofs.InnermostCounts

/-!
# The intervals of a count index

A count index takes the place of the ranges it is made of: its intervals lie side by side, hold the
same offsets, and each has the count of a range around it (`CountIndex.Flattens`).

While the ranges are swept, no open range starts after the cursor.  So an interval that is made from
the cursor on lies in the range whose count it has (`exists_liesIn_of_mem_sweep`).  A range makes at
most one interval when the next one starts and at most one when it ends, and before the first range
there is none, so there are fewer than two for each range (`length_sweep_le`).
-/

namespace BundleCoverage

/-- Whether an interval lies in a range and has its count. -/
structure Interval.LiesIn (i : Interval) (r : CoverageRange) : Prop where
  /-- It does not start before the range. -/
  start : r.startOffset.toNat ≤ i.start
  /-- It does not stop after the range. -/
  stop : i.stop ≤ r.endOffset.toNat
  /-- It has the count of the range. -/
  count : i.count = r.count.toNat

/-- Whether a count index takes the place of some ranges. -/
structure CountIndex.Flattens (index : CountIndex) (ranges : List CoverageRange) : Prop where
  /-- No interval is empty. -/
  positive : ∀ i ∈ index.intervals, i.start < i.stop
  /-- Each interval stops where the next one starts or before. -/
  ordered : index.intervals.IsChain (·.stop ≤ ·.start)
  /-- The offsets of the intervals are those of the ranges. -/
  union : ∀ offset,
    (∃ i ∈ index.intervals, i.contains offset) ↔ ∃ r ∈ ranges, r.contains offset
  /-- Each interval lies in a range that has its count. -/
  counts : ∀ i ∈ index.intervals, ∃ r ∈ ranges, i.LiesIn r
  /-- There are fewer than two intervals for each range that is not empty, and none if all are. -/
  size_le : index.size ≤ 2 * ranges.countP (!·.isEmpty) - 1

namespace CountIndex

open CoverageRange

/-! ## Intervals in order -/

theorem OrderedFrom.positive {cursor : Nat} {intervals : List Interval}
    (h : OrderedFrom cursor intervals) : ∀ i ∈ intervals, i.start < i.stop := by
  induction intervals generalizing cursor with
  | nil => simp
  | cons i rest ih =>
      obtain ⟨-, hpositive, hrest⟩ := h
      exact List.forall_mem_cons.2 ⟨hpositive, ih hrest⟩

theorem OrderedFrom.isChain {cursor : Nat} {intervals : List Interval}
    (h : OrderedFrom cursor intervals) : intervals.IsChain (·.stop ≤ ·.start) := by
  induction intervals generalizing cursor with
  | nil => exact .nil
  | cons i rest ih =>
      obtain ⟨-, -, hrest⟩ := h
      cases rest with
      | nil => exact .singleton i
      | cons next rest => exact .cons_cons hrest.1 (ih hrest)

/-! ## Intervals in ranges -/

variable {cursor stop limit : Nat} {r : CoverageRange} {still ranges : List CoverageRange}
  {i : Interval}

theorem liesIn_of_mem_upTo (hi : i ∈ upTo cursor stop r) (hstart : r.startOffset.toNat ≤ cursor)
    (hstop : stop ≤ r.endOffset.toNat) : i.LiesIn r := by
  unfold upTo at hi
  split at hi
  · obtain rfl := List.mem_singleton.1 hi
    exact ⟨hstart, hstop, rfl⟩
  · cases hi

theorem start_le_max (hstill : ∀ r ∈ still, r.startOffset.toNat ≤ cursor) (after : Nat) :
    ∀ r ∈ still, r.startOffset.toNat ≤ max cursor after :=
  fun r hr => Nat.le_trans (hstill r hr) (Nat.le_max_left ..)

theorem exists_liesIn_of_mem_closeAll (hstill : ∀ r ∈ still, r.startOffset.toNat ≤ cursor)
    (hi : i ∈ closeAll cursor still) : ∃ r ∈ still, i.LiesIn r := by
  induction still generalizing cursor with
  | nil => cases hi
  | cons top rest ih =>
      obtain ⟨htop, hrest⟩ := List.forall_mem_cons.1 hstill
      rw [closeAll] at hi
      rcases List.mem_append.1 hi with hi | hi
      · exact ⟨top, List.mem_cons_self .., liesIn_of_mem_upTo hi htop (Nat.le_refl _)⟩
      · obtain ⟨r, hr, hin⟩ := ih (start_le_max hrest _) hi
        exact ⟨r, List.mem_cons_of_mem _ hr, hin⟩

theorem exists_liesIn_of_mem_beforeStart (hstill : ∀ r ∈ still, r.startOffset.toNat ≤ cursor)
    (hi : i ∈ beforeStart limit cursor still) : ∃ r ∈ still, i.LiesIn r := by
  induction still generalizing cursor with
  | nil => simp [beforeStart, closeBy] at hi
  | cons top rest ih =>
      obtain ⟨htop, hrest⟩ := List.forall_mem_cons.1 hstill
      by_cases hopen : limit < top.endOffset.toNat
      · rw [beforeStart_cons_of_open hopen] at hi
        exact ⟨top, List.mem_cons_self .., liesIn_of_mem_upTo hi htop (Nat.le_of_lt hopen)⟩
      · rw [beforeStart_cons_of_ended hopen] at hi
        rcases List.mem_append.1 hi with hi | hi
        · exact ⟨top, List.mem_cons_self .., liesIn_of_mem_upTo hi htop (Nat.le_refl _)⟩
        · obtain ⟨r, hr, hin⟩ := ih (start_le_max hrest _) hi
          exact ⟨r, List.mem_cons_of_mem _ hr, hin⟩

theorem closeBy_suffix (limit cursor : Nat) (still : List CoverageRange) :
    (closeBy limit cursor still).2.2 <:+ still := by
  induction still generalizing cursor with
  | nil => exact List.suffix_rfl
  | cons top rest ih =>
      rw [closeBy]
      split
      · exact List.suffix_rfl
      · exact (ih _).trans (List.suffix_cons ..)

/-- Each interval of a sweep lies in one of the ranges that are open or to come, and has its
count. -/
theorem exists_liesIn_of_mem_sweep
    (hsorted : ranges.Pairwise (·.startOffset.toNat ≤ ·.startOffset.toNat))
    (hcursor : ∀ r ∈ ranges, cursor ≤ r.startOffset.toNat)
    (hstill : ∀ r ∈ still, r.startOffset.toNat ≤ cursor) (hi : i ∈ sweep cursor still ranges) :
    ∃ r ∈ still ++ ranges, i.LiesIn r := by
  induction ranges generalizing cursor still with
  | nil =>
      rw [List.append_nil]
      exact exists_liesIn_of_mem_closeAll hstill hi
  | cons r ranges ih =>
      obtain ⟨hstart, hrest⟩ := List.pairwise_cons.1 hsorted
      have hr := hcursor r (List.mem_cons_self ..)
      rw [sweep_cons still hr] at hi
      rcases List.mem_append.1 hi with hi | hi
      · obtain ⟨r', hr', hin⟩ := exists_liesIn_of_mem_beforeStart hstill hi
        exact ⟨r', List.mem_append_left _ hr', hin⟩
      · have hleft := closeBy_suffix r.startOffset.toNat cursor still
        -- the range that starts is open now, and the others started before
        have hopen : ∀ r' ∈ r :: (closeBy r.startOffset.toNat cursor still).2.2,
            r'.startOffset.toNat ≤ r.startOffset.toNat :=
          List.forall_mem_cons.2
            ⟨Nat.le_refl _, fun r' hr' => Nat.le_trans (hstill r' (hleft.subset hr')) hr⟩
        obtain ⟨r', hr', hin⟩ := ih hrest hstart hopen hi
        refine ⟨r', ?_, hin⟩
        simp only [List.mem_append, List.mem_cons] at hr' ⊢
        rcases hr' with (rfl | hr') | hr'
        · exact .inr (.inl rfl)
        · exact .inl (hleft.subset hr')
        · exact .inr (.inr hr')

/-! ## The number of intervals -/

theorem length_upTo_le (cursor stop : Nat) (r : CoverageRange) :
    (upTo cursor stop r).length ≤ 1 := by
  unfold upTo
  split <;> simp

theorem length_closeAll_le (cursor : Nat) (still : List CoverageRange) :
    (closeAll cursor still).length ≤ still.length := by
  induction still generalizing cursor with
  | nil => exact Nat.le_refl 0
  | cons top rest ih =>
      have htop := length_upTo_le cursor top.endOffset.toNat top
      have hrest := ih (max cursor top.endOffset.toNat)
      simp only [closeAll, List.length_append, List.length_cons]
      omega

/-- Before a range starts, each range that ends makes at most one interval, and those that are left
make at most one together. -/
theorem length_beforeStart_le (limit cursor : Nat) (still : List CoverageRange) :
    (beforeStart limit cursor still).length + (closeBy limit cursor still).2.2.length
      ≤ still.length + 1 := by
  induction still generalizing cursor with
  | nil => simp [beforeStart, closeBy]
  | cons top rest ih =>
      by_cases hopen : limit < top.endOffset.toNat
      · have htop := length_upTo_le cursor limit top
        rw [beforeStart_cons_of_open hopen]
        simp only [closeBy, if_pos hopen, List.length_cons]
        omega
      · have htop := length_upTo_le cursor top.endOffset.toNat top
        have hrest := ih (max cursor top.endOffset.toNat)
        have hleft : (closeBy limit cursor (top :: rest)).2.2
            = (closeBy limit (max cursor top.endOffset.toNat) rest).2.2 := by
          rw [closeBy, if_neg hopen]
        rw [beforeStart_cons_of_ended hopen, hleft, List.length_append, List.length_cons]
        omega

theorem length_sweep_le (hsorted : ranges.Pairwise (·.startOffset.toNat ≤ ·.startOffset.toNat))
    (hcursor : ∀ r ∈ ranges, cursor ≤ r.startOffset.toNat) (still : List CoverageRange) :
    (sweep cursor still ranges).length ≤ still.length + 2 * ranges.length := by
  induction ranges generalizing cursor still with
  | nil => exact length_closeAll_le cursor still
  | cons r ranges ih =>
      obtain ⟨hstart, hrest⟩ := List.pairwise_cons.1 hsorted
      have hbefore := length_beforeStart_le r.startOffset.toNat cursor still
      have hafter := ih hrest hstart (r :: (closeBy r.startOffset.toNat cursor still).2.2)
      rw [sweep_cons still (hcursor r (List.mem_cons_self ..))]
      simp only [List.length_append, List.length_cons] at hafter ⊢
      omega

/-- Before the first range starts, no interval is made. -/
theorem length_sweep_lt {r : CoverageRange}
    (hsorted : (r :: ranges).Pairwise (·.startOffset.toNat ≤ ·.startOffset.toNat)) :
    (sweep 0 [] (r :: ranges)).length < 2 * (r :: ranges).length := by
  obtain ⟨hstart, hrest⟩ := List.pairwise_cons.1 hsorted
  have hlength := length_sweep_le hrest hstart [r]
  have hnone : beforeStart r.startOffset.toNat 0 [] = [] := rfl
  rw [sweep_cons [] (Nat.zero_le _), hnone, List.nil_append]
  simp only [closeBy, List.length_cons, List.length_nil] at hlength ⊢
  omega

/-! ## Any ranges -/

theorem length_sorted (ranges : List CoverageRange) :
    ((sorted ranges).map (·.1)).length = ranges.countP (!·.isEmpty) := by
  rw [map_sorted, List.length_mergeSort, List.countP_eq_length_filter]

theorem exists_contains_iff (ranges : List CoverageRange) (offset : Nat) :
    (∃ i ∈ (ofRanges ranges).intervals, i.contains offset) ↔
      ∃ r ∈ ranges, r.contains offset := by
  have hnone : (ofRanges ranges).countAt offset = none ↔ ∀ r ∈ ranges, ¬ r.contains offset := by
    rw [countAt_eq, Option.map_eq_none_iff, find?_sorted_eq_none_iff]
  rw [countAt_eq_find?, Option.map_eq_none_iff, List.find?_eq_none] at hnone
  rw [← not_iff_not]
  simpa only [not_exists, not_and] using hnone

theorem size_ofRanges_le (ranges : List CoverageRange) :
    (ofRanges ranges).size ≤ 2 * ranges.countP (!·.isEmpty) - 1 := by
  have hsorted := pairwise_start_sorted ranges
  rw [size, intervals_ofRanges, ← length_sorted]
  cases hranges : (sorted ranges).map (·.1) with
  | nil => exact Nat.le_refl 0
  | cons r rest =>
      rw [hranges] at hsorted
      have := length_sweep_lt hsorted
      omega

/-- Any ranges are flattened: the intervals lie side by side, hold the offsets of the ranges, have
the counts of ranges around them, and are fewer than two for each range that is not empty. -/
theorem flattens_ofRanges (ranges : List CoverageRange) : (ofRanges ranges).Flattens ranges := by
  have hsorted := pairwise_start_sorted ranges
  have hordered := orderedFrom_ofRanges ranges
  refine ⟨hordered.positive, hordered.isChain, exists_contains_iff ranges, fun i hi => ?_,
    size_ofRanges_le ranges⟩
  rw [intervals_ofRanges] at hi
  obtain ⟨r, hr, hin⟩ :=
    exists_liesIn_of_mem_sweep hsorted (fun _ _ => Nat.zero_le _) (by simp) hi
  obtain ⟨p, hp, rfl⟩ := List.mem_map.1 hr
  exact ⟨p.1, List.mem_of_getElem? (mem_sorted.1 hp).1, hin⟩

-- Ranges within one another make as many intervals as there can be.
example : (ofRanges [⟨0, 9, 1⟩, ⟨1, 8, 2⟩, ⟨2, 7, 3⟩]).size = 5 := by cbv

end CountIndex

end BundleCoverage
