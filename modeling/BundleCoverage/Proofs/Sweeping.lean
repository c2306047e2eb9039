import BundleCoverage.Script.CountIndex

/-!
# The sweep over the ranges of a script

What the sweep does is said by the count that its intervals give each offset (`CountIndex.lookup`).
The intervals that are made up to the start of the next range (`CountIndex.beforeStart`) count as the
innermost open range does, and with those that follow the sweep counts as the last of the ranges
around an offset (`CountIndex.lookup_sweep`).

The intervals come in order and do not overlap (`CountIndex.orderedFrom_sweep`).  So those that start
at an offset or before are in front (`CountIndex.OrderedFrom.takeWhile_eq_filter`), and only the last
of them can hold the offset (`CountIndex.OrderedFrom.lookup_eq`).
-/

namespace BundleCoverage

namespace CoverageRange

theorem contains_iff {r : CoverageRange} {offset : Nat} :
    r.contains offset ↔ r.startOffset.toNat ≤ offset ∧ offset < r.endOffset.toNat := by
  simp [contains]

theorem isEmpty_of_contains {r : CoverageRange} {offset : Nat} (h : r.contains offset) :
    r.isEmpty = false := by
  rw [contains_iff] at h
  simp only [isEmpty, decide_eq_false_iff_not]
  omega

end CoverageRange

namespace CountIndex

open CoverageRange

/-! ## The counts of intervals -/

/-- The count that some intervals give an offset. -/
def lookup (intervals : List Interval) (offset : Nat) : Option Nat :=
  (intervals.find? (·.contains offset)).map (·.count)

/-- The count of the innermost open range that does not end before an offset. -/
def openCount (still : List CoverageRange) (offset : Nat) : Option Nat :=
  (still.find? (offset < ·.endOffset.toNat)).map (·.count.toNat)

variable {offset : Nat}

theorem lookup_cons (i : Interval) (rest : List Interval) :
    lookup (i :: rest) offset = if i.contains offset then some i.count else lookup rest offset := by
  by_cases hin : i.contains offset = true
  · simp [lookup, hin]
  · simp [lookup, hin]

theorem lookup_append (before after : List Interval) :
    lookup (before ++ after) offset = (lookup before offset).or (lookup after offset) := by
  rw [lookup, List.find?_append]
  cases hbefore : before.find? (·.contains offset) with
  | none => simp [lookup, hbefore]
  | some i => simp [lookup, hbefore]

theorem lookup_upTo (cursor stop : Nat) (r : CoverageRange) :
    lookup (upTo cursor stop r) offset
      = if cursor ≤ offset ∧ offset < stop then some r.count.toNat else none := by
  unfold upTo
  split
  · by_cases hin : cursor ≤ offset ∧ offset < stop
    · simp [lookup, Interval.contains, hin]
    · simp [lookup, Interval.contains, hin]
  · next hempty =>
    rw [if_neg (by omega)]
    rfl

theorem openCount_cons (top : CoverageRange) (rest : List CoverageRange) :
    openCount (top :: rest) offset
      = if offset < top.endOffset.toNat then some top.count.toNat else openCount rest offset := by
  by_cases hopen : offset < top.endOffset.toNat
  · simp [openCount, hopen]
  · simp [openCount, hopen]

/-- Closing all open ranges counts each offset from the cursor on. -/
theorem lookup_closeAll (cursor : Nat) (still : List CoverageRange) :
    lookup (closeAll cursor still) offset
      = if cursor ≤ offset then openCount still offset else none := by
  induction still generalizing cursor with
  | nil => simp [closeAll, lookup, openCount]
  | cons top rest ih =>
      rw [closeAll, lookup_append, lookup_upTo, ih, openCount_cons]
      grind

/-- The intervals that are made before the next range starts: those of the ranges that end by then
and that of the innermost range that is left. -/
def beforeStart (limit cursor : Nat) (still : List CoverageRange) : List Interval :=
  let (closed, after, left) := closeBy limit cursor still
  closed ++ (left.head?.map (upTo after limit)).getD []

theorem beforeStart_cons_of_ended {limit : Nat} {top : CoverageRange}
    (h : ¬ limit < top.endOffset.toNat) (cursor : Nat) (rest : List CoverageRange) :
    beforeStart limit cursor (top :: rest)
      = upTo cursor top.endOffset.toNat top
        ++ beforeStart limit (max cursor top.endOffset.toNat) rest := by
  simp only [beforeStart, closeBy, if_neg h, List.append_assoc]

theorem beforeStart_cons_of_open {limit : Nat} {top : CoverageRange}
    (h : limit < top.endOffset.toNat) (cursor : Nat) (rest : List CoverageRange) :
    beforeStart limit cursor (top :: rest) = upTo cursor limit top := by
  simp [beforeStart, closeBy, h]

/-- They count each offset from the cursor up to the start. -/
theorem lookup_beforeStart (limit cursor : Nat) (still : List CoverageRange) :
    lookup (beforeStart limit cursor still) offset
      = if cursor ≤ offset ∧ offset < limit then openCount still offset else none := by
  induction still generalizing cursor with
  | nil => simp [beforeStart, closeBy, lookup, openCount]
  | cons top rest ih =>
      rw [openCount_cons]
      by_cases hopen : limit < top.endOffset.toNat
      · rw [beforeStart_cons_of_open hopen, lookup_upTo]
        grind
      · rw [beforeStart_cons_of_ended hopen, lookup_append, lookup_upTo, ih]
        grind

/-- The ranges that end by the start of the next one are open at no later offset. -/
theorem openCount_closeBy {limit : Nat} (hlimit : limit ≤ offset) (cursor : Nat)
    (still : List CoverageRange) :
    openCount (closeBy limit cursor still).2.2 offset = openCount still offset := by
  induction still generalizing cursor with
  | nil => rfl
  | cons top rest ih =>
      rw [closeBy]
      split
      · rfl
      · rw [openCount_cons, if_neg (by omega)]
        exact ih _

theorem cursor_closeBy_le (limit cursor : Nat) (still : List CoverageRange) :
    (closeBy limit cursor still).2.1 ≤ max cursor limit := by
  induction still generalizing cursor with
  | nil => exact Nat.le_max_left ..
  | cons top rest ih =>
      rw [closeBy]
      split
      · exact Nat.le_max_left ..
      · exact Nat.le_trans (ih _) (by omega)

theorem sweep_cons {cursor : Nat} (still : List CoverageRange) {r : CoverageRange}
    (hcursor : cursor ≤ r.startOffset.toNat) (ranges : List CoverageRange) :
    sweep cursor still (r :: ranges)
      = beforeStart r.startOffset.toNat cursor still
        ++ sweep r.startOffset.toNat
          (r :: (closeBy r.startOffset.toNat cursor still).2.2) ranges := by
  have hle := cursor_closeBy_le r.startOffset.toNat cursor still
  have hmax : max (closeBy r.startOffset.toNat cursor still).2.1 r.startOffset.toNat
      = r.startOffset.toNat := by omega
  rw [sweep]
  simp only [beforeStart, hmax]

/-- The sweep counts an offset as the last of the ranges to come around it does, or else as the
innermost open range. -/
theorem lookup_sweep {ranges : List CoverageRange}
    (hsorted : ranges.Pairwise (·.startOffset.toNat ≤ ·.startOffset.toNat)) {cursor : Nat}
    (hcursor : ∀ r ∈ ranges, cursor ≤ r.startOffset.toNat) (still : List CoverageRange) :
    lookup (sweep cursor still ranges) offset
      = if cursor ≤ offset then
          ((ranges.reverse.find? (·.contains offset)).map (·.count.toNat)).or
            (openCount still offset)
        else none := by
  induction ranges generalizing cursor still with
  | nil => simp [sweep, lookup_closeAll]
  | cons r ranges ih =>
      obtain ⟨hstart, hrest⟩ := List.pairwise_cons.1 hsorted
      have hr := hcursor r (List.mem_cons_self ..)
      rw [sweep_cons still hr, lookup_append, lookup_beforeStart, ih hrest hstart, openCount_cons,
        List.reverse_cons, List.find?_append]
      by_cases hreached : r.startOffset.toNat ≤ offset
      · have hbefore : ¬ (cursor ≤ offset ∧ offset < r.startOffset.toNat) := by omega
        have hcursor : cursor ≤ offset := by omega
        rw [if_neg hbefore, if_pos hreached, if_pos hcursor, openCount_closeBy hreached]
        cases hlater : ranges.reverse.find? (·.contains offset) with
        | some later => simp
        | none =>
            by_cases hends : offset < r.endOffset.toNat
            · have hcontains : r.contains offset := contains_iff.2 ⟨hreached, hends⟩
              simp [hends, hcontains]
            · have hcontains : ¬ r.contains offset := fun h => hends (contains_iff.1 h).2
              simp [hends, hcontains]
      · -- none of the ranges to come has started
        have hcontains : ¬ r.contains offset := fun h => hreached (contains_iff.1 h).1
        have hlater : ranges.reverse.find? (·.contains offset) = none := by
          rw [List.find?_eq_none]
          intro later hmem hcontains
          have := hstart later (List.mem_reverse.1 hmem)
          have := (contains_iff.1 hcontains).1
          omega
        simp [hreached, hlater, hcontains, Nat.lt_of_not_le hreached]

/-! ## The order of the intervals -/

/-- Whether no interval is empty and each starts where the one before it stops or later, the first
of them at a cursor or later. -/
def OrderedFrom : Nat → List Interval → Prop
  | _, [] => True
  | cursor, i :: rest => cursor ≤ i.start ∧ i.start < i.stop ∧ OrderedFrom i.stop rest

theorem OrderedFrom.append {cursor after : Nat} {xs ys : List Interval} (hcursor : cursor ≤ after)
    (hxs : OrderedFrom cursor xs) (hstops : ∀ i ∈ xs, i.stop ≤ after) (hys : OrderedFrom after ys) :
    OrderedFrom cursor (xs ++ ys) := by
  induction xs generalizing cursor with
  | nil =>
      cases ys with
      | nil => trivial
      | cons i ys => exact ⟨Nat.le_trans hcursor hys.1, hys.2⟩
  | cons i xs ih =>
      obtain ⟨hstart, hpositive, hrest⟩ := hxs
      obtain ⟨hstop, hstops⟩ := List.forall_mem_cons.1 hstops
      exact ⟨hstart, hpositive, ih hstop hrest hstops⟩

theorem orderedFrom_upTo (cursor stop : Nat) (r : CoverageRange) :
    OrderedFrom cursor (upTo cursor stop r) ∧ ∀ i ∈ upTo cursor stop r, i.stop ≤ stop := by
  unfold upTo
  split
  · next h => simp [OrderedFrom, h]
  · simp [OrderedFrom]

theorem orderedFrom_closeAll (cursor : Nat) (still : List CoverageRange) :
    OrderedFrom cursor (closeAll cursor still) := by
  induction still generalizing cursor with
  | nil => trivial
  | cons top rest ih =>
      obtain ⟨hfirst, hstops⟩ := orderedFrom_upTo cursor top.endOffset.toNat top
      refine hfirst.append (Nat.le_max_left ..) (fun i hi => ?_) (ih _)
      exact Nat.le_trans (hstops i hi) (Nat.le_max_right ..)

theorem orderedFrom_beforeStart (limit cursor : Nat) (still : List CoverageRange) :
    OrderedFrom cursor (beforeStart limit cursor still) ∧
      ∀ i ∈ beforeStart limit cursor still, i.stop ≤ limit := by
  induction still generalizing cursor with
  | nil => simp [beforeStart, closeBy, OrderedFrom]
  | cons top rest ih =>
      by_cases hopen : limit < top.endOffset.toNat
      · rw [beforeStart_cons_of_open hopen]
        exact orderedFrom_upTo cursor limit top
      · rw [beforeStart_cons_of_ended hopen]
        obtain ⟨hfirst, hstops⟩ := orderedFrom_upTo cursor top.endOffset.toNat top
        obtain ⟨hrest, hlimit⟩ := ih (max cursor top.endOffset.toNat)
        refine ⟨hfirst.append (Nat.le_max_left ..) (fun i hi => ?_) hrest, ?_⟩
        · exact Nat.le_trans (hstops i hi) (Nat.le_max_right ..)
        · rw [List.forall_mem_append]
          exact ⟨fun i hi => Nat.le_trans (hstops i hi) (Nat.le_of_not_lt hopen), hlimit⟩

theorem orderedFrom_sweep {ranges : List CoverageRange}
    (hsorted : ranges.Pairwise (·.startOffset.toNat ≤ ·.startOffset.toNat)) {cursor : Nat}
    (hcursor : ∀ r ∈ ranges, cursor ≤ r.startOffset.toNat) (still : List CoverageRange) :
    OrderedFrom cursor (sweep cursor still ranges) := by
  induction ranges generalizing cursor still with
  | nil => exact orderedFrom_closeAll cursor still
  | cons r ranges ih =>
      obtain ⟨hstart, hrest⟩ := List.pairwise_cons.1 hsorted
      have hr := hcursor r (List.mem_cons_self ..)
      obtain ⟨hbefore, hstops⟩ := orderedFrom_beforeStart r.startOffset.toNat cursor still
      rw [sweep_cons still hr]
      exact hbefore.append hr hstops (ih hrest hstart _)

theorem OrderedFrom.le_start {cursor : Nat} {intervals : List Interval}
    (h : OrderedFrom cursor intervals) : ∀ i ∈ intervals, cursor ≤ i.start := by
  induction intervals generalizing cursor with
  | nil => simp
  | cons i rest ih =>
      obtain ⟨hstart, hpositive, hrest⟩ := h
      refine List.forall_mem_cons.2 ⟨hstart, fun j hj => ?_⟩
      have := ih hrest j hj
      omega

/-- In intervals that are in order, those that start at an offset or before are in front. -/
theorem OrderedFrom.takeWhile_eq_filter {cursor : Nat} {intervals : List Interval}
    (h : OrderedFrom cursor intervals) (offset : Nat) :
    intervals.takeWhile (·.start ≤ offset) = intervals.filter (·.start ≤ offset) := by
  induction intervals generalizing cursor with
  | nil => rfl
  | cons i rest ih =>
      obtain ⟨-, hpositive, hrest⟩ := h
      by_cases hstarted : i.start ≤ offset
      · rw [List.takeWhile_cons_of_pos (by simpa using hstarted),
          List.filter_cons_of_pos (by simpa using hstarted), ih hrest]
      · have hnone : rest.filter (·.start ≤ offset) = [] := by
          rw [List.filter_eq_nil_iff]
          intro j hj
          have := hrest.le_start j hj
          simp only [decide_eq_true_eq]
          omega
        rw [List.takeWhile_cons_of_neg (by simpa using hstarted),
          List.filter_cons_of_neg (by simpa using hstarted), hnone]

/-- In intervals that are in order, the only one that can hold an offset is the last that starts
there or before. -/
theorem OrderedFrom.lookup_eq {cursor : Nat} {intervals : List Interval}
    (h : OrderedFrom cursor intervals) (offset : Nat) :
    lookup intervals offset
      = ((intervals.filter (·.start ≤ offset)).getLast?.filter (offset < ·.stop)).map (·.count) := by
  induction intervals generalizing cursor with
  | nil => rfl
  | cons i rest ih =>
      obtain ⟨-, -, hrest⟩ := h
      rw [lookup_cons, ih hrest]
      by_cases hstarted : i.start ≤ offset
      · rw [List.filter_cons_of_pos (by simpa using hstarted)]
        by_cases hstopped : offset < i.stop
        · -- the next interval starts after the offset
          have hnone : rest.filter (·.start ≤ offset) = [] := by
            rw [List.filter_eq_nil_iff]
            intro j hj
            have := hrest.le_start j hj
            simp only [decide_eq_true_eq]
            omega
          simp [hnone, Interval.contains, Option.filter, hstarted, hstopped]
        · have hout : i.contains offset = false := by simp [Interval.contains, hstopped]
          cases hlater : rest.filter (·.start ≤ offset) with
          | nil => simp [hout, Option.filter, hstopped]
          | cons j later => simp [hout, List.getLast?_cons_cons]
      · rw [List.filter_cons_of_neg (by simpa using hstarted)]
        simp [Interval.contains, hstarted]

end CountIndex

end BundleCoverage
