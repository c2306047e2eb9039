import BundleCoverage.Script.LineIndex
import BundleCoverage.Script.Range
import BundleCoverage.SourceMap.Basic
import BundleCoverage.SourcePath

/-!
# From script offsets to sources

An offset mapper relates the offsets of one bundled script to positions in its sources,
through the script's lines and its mapping table.  An offset comes from the mapping
nearest before it.  A range spans from the position of its first offset to that of its
last, but only within one source and forwards; otherwise it collapses onto its start.

Original lines are counted from one, columns from zero.
-/

namespace BundleCoverage

open SourceMap

/-- A position in a source. -/
structure OriginalPosition where
  /-- The source, as a place in the list of sources. -/
  sourceIndex : Nat
  /-- The line, from one. -/
  line : Nat
  /-- The column, from zero. -/
  column : Nat
deriving Repr, DecidableEq, Inhabited

/-- The position a mapping leads to. -/
def OriginalPosition.ofMapping (m : Mapping) : OriginalPosition where
  sourceIndex := m.source.sourceIndex.toNat
  line := addWords m.source.originalLine.toNat 1
  column := m.source.originalColumn.toNat

/-- Whether a position comes after another one of the same source, or is the same. -/
def OriginalPosition.reaches (a b : OriginalPosition) : Bool :=
  a.sourceIndex == b.sourceIndex && (b.line < a.line || (b.line == a.line && b.column ≤ a.column))

/-- A range of positions in one source, with both ends included. -/
structure OriginalSpan where
  /-- The first position. -/
  start : OriginalPosition
  /-- The last position. -/
  stop : OriginalPosition
deriving Repr, DecidableEq, Inhabited

/-- A mapping with the offset of the script it stands at. -/
structure MappedSegment where
  /-- The offset. -/
  offset : Nat
  /-- Where it leads. -/
  original : OriginalPosition
deriving Repr, DecidableEq, Inhabited

/-- The canonical path of the source at an index. -/
def SourceMap.canonicalPath? (map : SourceMap) (index : Nat) : Option String :=
  (map.sourcePath? index).map SourcePath.normalize

/-- What relates one script to its sources. -/
structure OffsetMapper where
  /-- The source map of the script. -/
  map : SourceMap
  /-- Its mappings. -/
  table : MappingTable
  /-- The lines of the script. -/
  lines : LineIndex

namespace OffsetMapper

/-- The position an offset comes from. -/
def position? (m : OffsetMapper) (offset : Nat) : Option OriginalPosition :=
  let (line, column) := m.lines.position offset
  (m.table.find line column).map OriginalPosition.ofMapping

/-- The span a range comes from. -/
def span? (m : OffsetMapper) (range : CoverageRange) : Option OriginalSpan :=
  (m.position? range.startOffset.toNat).map fun start =>
    let stop := (m.position? range.lastOffset).filter (·.reaches start)
    ⟨start, stop.getD start⟩

/-- Every mapping that stands on a line of the script, with its offset. -/
def segments (m : OffsetMapper) : List MappedSegment :=
  m.table.mappings.filterMap fun mapping =>
    (m.lines.offset mapping.generatedLine mapping.generatedColumn.toNat).map fun offset =>
      ⟨offset, .ofMapping mapping⟩

end OffsetMapper

end BundleCoverage
