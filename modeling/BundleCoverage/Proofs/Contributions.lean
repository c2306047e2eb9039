import BundleCoverage.Merge.Finding

/-!
# What a script says

What the ranges of an entry say about a line, a function or a block of a source is stated
here from the script alone, with no findings in between: `ResolvedScript.lineCount?` for a
line, `callCount?` for a function of the script and `blockCount?` for a range of it.  An
offset or a range of a script comes from a source through the source map, or from the script
itself if it has none (`origin?`, `extent?`).
-/

namespace BundleCoverage

/-! ## Lines -/

/-- The count that a mapping gives to a line of a source: it leads to this line, its source
has this canonical path and is in scope, and a range lies around its offset. -/
def OffsetMapper.countOn? (m : OffsetMapper) (filter : SourceFilter) (counts : CountIndex)
    (path : String) (line : Nat) (s : MappedSegment) : Option Nat :=
  if s.original.line = line ∧ m.map.canonicalPath? s.original.sourceIndex = some path
      ∧ filter.includes path then
    counts.countAt s.offset
  else none

namespace ResolvedScript

/-- The count at the first column of a line with code. -/
def ownCount? (s : ResolvedScript) (counts : CountIndex) (line : Nat) : Option Nat := do
  let l ← (codeLines s.code).find? (·.line = line)
  let offset ← (LineIndex.ofText s.code).offset (l.line - 1) l.start
  counts.countAt offset

/-- What a script says about a line of a source: the highest count of the mappings that lead
there, or the count of its own line if it has no source map. -/
def lineCount? (s : ResolvedScript) (filter : SourceFilter) (counts : CountIndex)
    (path : String) (line : Nat) : Option Nat :=
  match s.mapper? with
  | some m => (m.segments.filterMap (m.countOn? filter counts path line)).max?
  | none => if s.path = path ∧ filter.includes path then s.ownCount? counts line else none

/-! ## Functions and blocks -/

/-- The number of code units of a script. -/
def length (s : ResolvedScript) : Nat := (LineIndex.ofText s.code).length

/-- Where an offset comes from: a canonical path and a position in this source. -/
def origin? (s : ResolvedScript) (offset : Nat) : Option (String × Position) :=
  match s.mapper? with
  | some m => do
    let p ← m.position? offset
    let path ← m.map.canonicalPath? p.sourceIndex
    return (path, ⟨p.line, p.column⟩)
  | none => some (s.path, (LineIndex.ofText s.code).originalPosition offset)

/-- Where a range comes from: a canonical path and a location in this source. -/
def extent? (s : ResolvedScript) (r : CoverageRange) : Option (String × Location) :=
  match s.mapper? with
  | some m => do
    let span ← m.span? r
    let path ← m.map.canonicalPath? span.start.sourceIndex
    return (path, .ofSpan span)
  | none =>
    let lines := LineIndex.ofText s.code
    some (s.path,
      ⟨lines.originalPosition r.startOffset.toNat, lines.originalPosition r.lastOffset⟩)

end ResolvedScript

/-- Whether a function with this first range stands for a whole script of some length. -/
def FunctionCoverage.IsWrapper (f : FunctionCoverage) (first : CoverageRange) (length : Nat) :
    Prop :=
  f.functionName = "" ∧ first.startOffset = 0 ∧ length ≤ first.endOffset.toNat

instance (f : FunctionCoverage) (first : CoverageRange) (length : Nat) :
    Decidable (f.IsWrapper first length) :=
  inferInstanceAs (Decidable (_ ∧ _ ∧ _))

namespace ResolvedScript

/-- The count of a function of a script, if it is the function of a source in scope that
starts at a position.  It is the count of its first range, and says where it starts. -/
def callCount? (s : ResolvedScript) (filter : SourceFilter) (path : String) (start : Position)
    (f : FunctionCoverage) : Option Nat := do
  let first ← f.ranges.head?
  if ¬f.IsWrapper first s.length ∧ s.origin? first.startOffset.toNat = some (path, start)
      ∧ filter.includes path then
    some first.count.toNat
  else none

/-- The count of a range of a script, if it has a location in a source in scope. -/
def blockCount? (s : ResolvedScript) (filter : SourceFilter) (path : String)
    (location : Location) (r : CoverageRange) : Option Nat :=
  if s.extent? r = some (path, location) ∧ filter.includes path then some r.count.toNat else none

end ResolvedScript

end BundleCoverage
