import BundleCoverage.Script.Range

/-!
# The counts of a script

The ranges of a script nest: a function holds its blocks, and the count of an offset is
that of the innermost range around it.  A count index holds disjoint intervals, each with
the count that is valid in it.

The ranges are taken by ascending start, outer ranges first, and swept from left to
right.  The sweep keeps the ranges that are open, innermost first, and a cursor up to
which the intervals are made.

The intervals come by ascending start, so those that start at an offset or before are in
front, and only the last of them can hold the offset.
-/

namespace BundleCoverage

/-- A stretch of offsets with one count. -/
structure Interval where
  /-- The first offset. -/
  start : Nat
  /-- The offset after the last. -/
  stop : Nat
  /-- The count. -/
  count : Nat
deriving Repr, DecidableEq, Inhabited

/-- Whether an offset lies in an interval. -/
def Interval.contains (i : Interval) (offset : Nat) : Bool :=
  i.start ≤ offset && offset < i.stop

/-- The disjoint intervals of a script, in order. -/
structure CountIndex where
  /-- The intervals. -/
  intervals : List Interval
deriving Repr, DecidableEq, Inhabited

namespace CountIndex

/-- The interval from the cursor to `stop` with the count of `range`, unless it is empty. -/
def upTo (cursor stop : Nat) (range : CoverageRange) : List Interval :=
  if cursor < stop then [⟨cursor, stop, range.count.toNat⟩] else []

/-- Closes the open ranges that end at or before `limit`: their intervals, the cursor after
them and the ranges that stay open. -/
def closeBy (limit : Nat) : (cursor : Nat) → List CoverageRange →
    List Interval × Nat × List CoverageRange
  | cursor, [] => ([], cursor, [])
  | cursor, top :: rest =>
    if limit < top.endOffset.toNat then ([], cursor, top :: rest)
    else
      let (intervals, after, still) := closeBy limit (max cursor top.endOffset.toNat) rest
      (upTo cursor top.endOffset.toNat top ++ intervals, after, still)

/-- Closes every open range. -/
def closeAll : (cursor : Nat) → List CoverageRange → List Interval
  | _, [] => []
  | cursor, top :: rest =>
    upTo cursor top.endOffset.toNat top ++ closeAll (max cursor top.endOffset.toNat) rest

/-- The intervals from the cursor on, given the open ranges and those still to come. -/
def sweep : (cursor : Nat) → (still : List CoverageRange) → List CoverageRange → List Interval
  | cursor, still, [] => closeAll cursor still
  | cursor, still, range :: ranges =>
    let start := range.startOffset.toNat
    let (closed, cursor, still) := closeBy start cursor still
    let inner := (still.head?.map (upTo cursor start)).getD []
    closed ++ inner ++ sweep (max cursor start) (range :: still) ranges

/-- Whether a range comes before another: it starts earlier, or at the same place and ends
later. -/
def outerFirst (a b : CoverageRange) : Bool :=
  a.startOffset.toNat < b.startOffset.toNat
    || (a.startOffset == b.startOffset && b.endOffset.toNat ≤ a.endOffset.toNat)

/-- The index of some ranges.  Empty ranges have no count anywhere. -/
def ofRanges (ranges : List CoverageRange) : CountIndex where
  intervals := sweep 0 [] ((ranges.filter (!·.isEmpty)).mergeSort outerFirst)

/-- The last of the intervals in front that start at an offset or before. -/
def lastStarted (index : CountIndex) (offset : Nat) : Option Interval :=
  (index.intervals.takeWhile (·.start ≤ offset)).getLast?

/-- The count of an offset, if a range lies around it. -/
def countAt (index : CountIndex) (offset : Nat) : Option Nat :=
  ((index.lastStarted offset).filter (offset < ·.stop)).map (·.count)

/-- The number of intervals. -/
def size (index : CountIndex) : Nat := index.intervals.length

/-- Whether there is no interval. -/
def isEmpty (index : CountIndex) : Bool := index.intervals.isEmpty

end CountIndex

end BundleCoverage
