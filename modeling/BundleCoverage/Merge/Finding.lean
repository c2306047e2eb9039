import BundleCoverage.Coverage.Location
import BundleCoverage.Scope.SourceFilter
import BundleCoverage.Script.CodeLines
import BundleCoverage.Script.CountIndex
import BundleCoverage.Script.Resolved

/-!
# Findings

A finding is one thing that a coverage entry says about a source.  A script with a source
map tells about the sources behind its mappings, functions and blocks; a script without
one is its own source.  Only sources in scope are told about.

The function that stands for a whole script is no function of a source, but its blocks
count.
-/

namespace BundleCoverage

/-- What can be said about a source. -/
inductive Observation where
  /-- The source belongs to the script. -/
  | presence
  /-- Some columns of a line were executed a number of times. -/
  | line (line start stop count : Nat)
  /-- A function was called a number of times. -/
  | call (name : String) (location : Location) (count : Nat)
  /-- A block was executed a number of times. -/
  | block (location : Location) (count : Nat)
deriving Repr, DecidableEq, Inhabited

/-- An observation with its source. -/
structure Finding where
  /-- The canonical path of the source. -/
  path : String
  /-- The text of the source, if the script knows it. -/
  text : Option String
  /-- What is said. -/
  seen : Observation
deriving Repr, DecidableEq, Inhabited

/-- A location in a source. -/
structure Spot where
  /-- The canonical path of the source. -/
  path : String
  /-- The text of the source, if the script knows it. -/
  text : Option String
  /-- The location. -/
  location : Location
deriving Repr, DecidableEq, Inhabited

/-- Something said about the source of a spot. -/
def Spot.finding (s : Spot) (seen : Observation) : Finding := ⟨s.path, s.text, seen⟩

namespace FunctionCoverage

/-- The range of a function, unless it has none or stands for a whole script of some
length. -/
def ownRange? (f : FunctionCoverage) (codeLength : Nat) : Option CoverageRange :=
  f.ranges.head?.filter fun r =>
    !(f.functionName == "" && r.startOffset == 0 && codeLength ≤ r.endOffset.toNat)

/-- What a function and its blocks say, given the spots of their ranges. -/
def findings (f : FunctionCoverage) (codeLength : Nat) (spot? : CoverageRange → Option Spot) :
    List Finding :=
  let own := (f.ownRange? codeLength).bind fun r =>
    (spot? r).map fun s => s.finding (.call f.functionName s.location r.count.toNat)
  let blocks := f.blocks.filterMap fun r =>
    (spot? r).map fun s => s.finding (.block s.location r.count.toNat)
  own.toList ++ blocks

end FunctionCoverage

/-! ## Scripts with a source map -/

/-- The location of a span. -/
def Location.ofSpan (s : OriginalSpan) : Location :=
  ⟨⟨s.start.line, s.start.column⟩, ⟨s.stop.line, s.stop.column⟩⟩

namespace OffsetMapper

/-- The canonical path of a source, if it is in scope. -/
def pathInScope? (m : OffsetMapper) (filter : SourceFilter) (index : Nat) : Option String :=
  (m.map.canonicalPath? index).filter filter.includes

/-- What a mapping says about a line, if a range lies around it. -/
def lineFinding? (m : OffsetMapper) (filter : SourceFilter) (counts : CountIndex)
    (s : MappedSegment) : Option Finding := do
  let count ← counts.countAt s.offset
  let p := s.original
  let path ← m.pathInScope? filter p.sourceIndex
  return ⟨path, m.map.sourceContent? p.sourceIndex, .line p.line p.column p.column count⟩

/-- The spot of a range. -/
def spot? (m : OffsetMapper) (filter : SourceFilter) (r : CoverageRange) : Option Spot := do
  let span ← m.span? r
  let path ← m.pathInScope? filter span.start.sourceIndex
  return ⟨path, m.map.sourceContent? span.start.sourceIndex, .ofSpan span⟩

/-- What an entry says about the sources of its script. -/
def findings (m : OffsetMapper) (filter : SourceFilter) (e : Entry) : List Finding :=
  m.segments.filterMap (m.lineFinding? filter (.ofRanges e.ranges))
    ++ e.functions.flatMap fun f => f.findings m.lines.length (m.spot? filter)

end OffsetMapper

/-! ## Scripts without a source map -/

/-- The position of an offset. -/
def LineIndex.originalPosition (index : LineIndex) (offset : Nat) : Position :=
  let (line, column) := index.position offset
  ⟨line + 1, column⟩

namespace ResolvedScript

/-- The spot of a range in the script itself. -/
def ownSpot (s : ResolvedScript) (lines : LineIndex) (r : CoverageRange) : Spot where
  path := s.path
  text := some s.code
  location := ⟨lines.originalPosition r.startOffset.toNat, lines.originalPosition r.lastOffset⟩

/-- What a line of the script says, if a range lies around its first character. -/
def ownLine? (s : ResolvedScript) (lines : LineIndex) (counts : CountIndex) (l : CodeLine) :
    Option Finding := do
  let offset ← lines.offset (l.line - 1) l.start
  let count ← counts.countAt offset
  return ⟨s.path, some s.code, .line l.line l.start l.stop count⟩

/-- What an entry says about its script as a source. -/
def ownFindings (s : ResolvedScript) (e : Entry) : List Finding :=
  let lines := LineIndex.ofText s.code
  ⟨s.path, some s.code, .presence⟩
    :: (codeLines s.code).filterMap (s.ownLine? lines (.ofRanges e.ranges))
    ++ e.functions.flatMap fun f => f.findings lines.length (some <| s.ownSpot lines ·)

/-- What an entry says, given its script. -/
def findings (s : ResolvedScript) (filter : SourceFilter) (e : Entry) : List Finding :=
  match s.mapper? with
  | some m => m.findings filter e
  | none => if filter.includes s.path then s.ownFindings e else []

end ResolvedScript

end BundleCoverage
