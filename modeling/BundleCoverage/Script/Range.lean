/-!
# Ranges of a script

A range is a stretch of a bundled script with the number of times it was executed.  Its
offsets count UTF-16 code units.
-/

namespace BundleCoverage

/-- A stretch of a script and its execution count. -/
structure CoverageRange where
  /-- The first offset. -/
  startOffset : UInt32
  /-- The offset after the last. -/
  endOffset : UInt32
  /-- How often the stretch was executed. -/
  count : UInt32
deriving Repr, DecidableEq, Inhabited

namespace CoverageRange

/-- The number of offsets in a range. -/
def length (r : CoverageRange) : Nat := r.endOffset.toNat - r.startOffset.toNat

/-- Whether a range holds no offset. -/
def isEmpty (r : CoverageRange) : Bool := r.endOffset.toNat ≤ r.startOffset.toNat

/-- Whether an offset lies in a range. -/
def contains (r : CoverageRange) (offset : Nat) : Bool :=
  r.startOffset.toNat ≤ offset && offset < r.endOffset.toNat

/-- The last offset of a range, or its start if it is empty. -/
def lastOffset (r : CoverageRange) : Nat := max (r.endOffset.toNat - 1) r.startOffset.toNat

end CoverageRange

end BundleCoverage
