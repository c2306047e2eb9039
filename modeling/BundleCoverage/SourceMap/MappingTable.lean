import BundleCoverage.SourceMap.Mappings

/-!
# The mapping table

A mapping table holds the segments that come from a source, in the order of their
generated positions.  Segments at the same position keep the order of the stream.
The order is part of the type (`MappingTable.sorted`), so the mapping nearest before
a position is the last of those that do not come after it (`MappingTable.find`).
-/

namespace BundleCoverage.SourceMap

/-- A segment that comes from a source, with its generated line. -/
structure Mapping where
  /-- The line in the generated file, from zero. -/
  generatedLine : Nat
  /-- The column in that line. -/
  generatedColumn : UInt32
  /-- Where the segment comes from. -/
  source : SourcePosition
deriving Repr, DecidableEq

/-- Whether one generated position, a line and a column, does not come after another. -/
def notAfter (a b : Nat × Nat) : Bool := a.1 < b.1 || (a.1 == b.1 && a.2 ≤ b.2)

/-- The generated position of a mapping. -/
def Mapping.position (m : Mapping) : Nat × Nat := (m.generatedLine, m.generatedColumn.toNat)

/-- Whether a mapping does not come after another. -/
def Mapping.le (a b : Mapping) : Bool := notAfter a.position b.position

theorem Mapping.le_trans (a b c : Mapping) (hab : a.le b) (hbc : b.le c) : a.le c := by
  simp only [Mapping.le, notAfter, Bool.or_eq_true, Bool.and_eq_true, decide_eq_true_eq,
    beq_iff_eq] at *
  omega

theorem Mapping.le_total (a b : Mapping) : (a.le b || b.le a) = true := by
  simp only [Mapping.le, notAfter, Bool.or_eq_true, Bool.and_eq_true, decide_eq_true_eq,
    beq_iff_eq]
  omega

/-- The mappings of a source map, in the order of their generated positions. -/
structure MappingTable where
  /-- The mappings. -/
  mappings : List Mapping
  /-- They are in order. -/
  sorted : mappings.Pairwise (fun a b => a.le b)
deriving Repr, DecidableEq

/-- The mappings of one generated line, in the order of the stream. -/
def lineMappings (line : Nat) (segments : List Segment) : List Mapping :=
  segments.filterMap fun s => s.source.map fun source => ⟨line, s.generatedColumn, source⟩

/-- The mappings of some lines, in the order of the stream; the first is line `line`. -/
def streamFrom (line : Nat) : Lines → List Mapping
  | [] => []
  | segments :: lines => lineMappings line segments ++ streamFrom (line + 1) lines

namespace MappingTable

/-- The table of some lines. -/
def ofLines (lines : Lines) : MappingTable where
  mappings := (streamFrom 0 lines).mergeSort Mapping.le
  sorted := List.pairwise_mergeSort Mapping.le_trans Mapping.le_total _

/-- The table of a mappings text. -/
def parse (text : String) : Except MappingsFault MappingTable := (decode text).map ofLines

/-- The mapping nearest to a position among those that do not come after it. -/
def find (t : MappingTable) (line column : Nat) : Option Mapping :=
  (t.mappings.takeWhile fun m => notAfter m.position (line, column)).getLast?

/-- How many mappings there are. -/
def size (t : MappingTable) : Nat := t.mappings.length

/-- Whether there is no mapping. -/
def isEmpty (t : MappingTable) : Bool := t.mappings.isEmpty

end MappingTable

end BundleCoverage.SourceMap
