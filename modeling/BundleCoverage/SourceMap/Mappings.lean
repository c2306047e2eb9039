import BundleCoverage.Error
import BundleCoverage.Saturating
import BundleCoverage.SourceMap.Vlq
import BundleCoverage.Text.Split

/-!
# The mappings of a source map

A mappings text has one group for each generated line, with a semicolon between
two groups and a comma between two segments of a group.  A segment has one, four
or five numbers: generated column, source, original line, original column and
name.  Each number is the difference from the segment before it that had the
field.  The generated column starts from zero on every line, the other fields go
on from line to line.

`decode` reads a text into `Lines`, segments with absolute values, and `encode`
writes them.  Both carry the same `Totals`: `Totals.read` adds the numbers of a
segment and `Totals.deltas` takes the differences.
-/

namespace BundleCoverage.SourceMap

open BundleCoverage

/-- Where a segment comes from, with all values counted from zero. -/
structure SourcePosition where
  /-- The source, as a place in the list of sources. -/
  sourceIndex : UInt32
  /-- The line in the source. -/
  originalLine : UInt32
  /-- The column in the source. -/
  originalColumn : UInt32
  /-- The name, as a place in the list of names. -/
  nameIndex : Option UInt32 := none
deriving Repr, DecidableEq

/-- One segment of a generated line. -/
structure Segment where
  /-- The column in the generated line. -/
  generatedColumn : UInt32
  /-- Where it comes from, unless it is generated only. -/
  source : Option SourcePosition := none
deriving Repr, DecidableEq

/-- The segments of each generated line. -/
abbrev Lines := List (List Segment)

/-! ## Faults -/

/-- The fields of a segment. -/
inductive Field
  | generatedColumn
  | sourceIndex
  | originalLine
  | originalColumn
  | nameIndex
deriving Repr, DecidableEq

/-- The name of a field in messages. -/
def Field.label : Field → String
  | .generatedColumn => "generated column"
  | .sourceIndex => "source index"
  | .originalLine => "original line"
  | .originalColumn => "original column"
  | .nameIndex => "name index"

/-- What is wrong with one segment. -/
inductive SegmentFault
  /-- It is no sequence of numbers. -/
  | number (fault : Vlq.Fault)
  /-- A field has left its range. -/
  | outOfRange (field : Field) (total : Int)
  /-- It has neither one, four nor five numbers. -/
  | fieldCount (count : Nat)
deriving Repr, DecidableEq

/-- The wording of a segment's fault. -/
def SegmentFault.message : SegmentFault → String
  | .number fault => fault.message
  | .outOfRange field total => s!"{field.label} out of range: {total}"
  | .fieldCount count => s!"segment has {count} fields, expected 1, 4 or 5"

/-- What is wrong with a mappings text. -/
structure MappingsFault where
  /-- How many segments came before the faulty one. -/
  segment : Nat
  /-- What is wrong with it. -/
  fault : SegmentFault
deriving Repr, DecidableEq

/-- A fault as an error of the library. -/
def MappingsFault.toError (f : MappingsFault) : Error := .invalidMappings f.segment f.fault.message

/-! ## Running totals -/

/-- The value each field had last. -/
structure Totals where
  generatedColumn : Int := 0
  sourceIndex : Int := 0
  originalLine : Int := 0
  originalColumn : Int := 0
  nameIndex : Int := 0
deriving Repr, DecidableEq

/-- The totals at the start of the next generated line. -/
def Totals.nextLine (t : Totals) : Totals := { t with generatedColumn := 0 }

/-- A total as a field, if it is in range. -/
def inRange (field : Field) (total : Int) : Except SegmentFault UInt32 :=
  if 0 ≤ total ∧ total ≤ maxWord then .ok (UInt32.ofNat total.toNat)
  else .error (.outOfRange field total)

/-- A total as an original line.  The last value is refused, since lines are counted
from one outside the source map. -/
def lineInRange (total : Int) : Except SegmentFault UInt32 :=
  if 0 ≤ total ∧ total < maxWord then .ok (UInt32.ofNat total.toNat)
  else .error (.outOfRange .originalLine total)

/-- The totals after the numbers of a segment. -/
def Totals.add (t : Totals) : List Int → Totals
  | [column] => { t with generatedColumn := t.generatedColumn + column }
  | [column, source, line, originalColumn] =>
    { t with
      generatedColumn := t.generatedColumn + column
      sourceIndex := t.sourceIndex + source
      originalLine := t.originalLine + line
      originalColumn := t.originalColumn + originalColumn }
  | [column, source, line, originalColumn, name] =>
    { generatedColumn := t.generatedColumn + column
      sourceIndex := t.sourceIndex + source
      originalLine := t.originalLine + line
      originalColumn := t.originalColumn + originalColumn
      nameIndex := t.nameIndex + name }
  | _ => t

/-- The source position at some totals. -/
def Totals.position (t : Totals) (nameIndex : Option UInt32) :
    Except SegmentFault SourcePosition := do
  let originalLine ← lineInRange t.originalLine
  let sourceIndex ← inRange .sourceIndex t.sourceIndex
  let originalColumn ← inRange .originalColumn t.originalColumn
  return { sourceIndex, originalLine, originalColumn, nameIndex }

/-- The segment at some totals that was written with `count` numbers.  Of several fields
out of range the first in the order name, original line, source, original column and
generated column is reported. -/
def Totals.segment (t : Totals) (count : Nat) : Except SegmentFault Segment :=
  match count with
  | 1 => do return { generatedColumn := ← inRange .generatedColumn t.generatedColumn }
  | 4 => do
    let source ← t.position none
    return { generatedColumn := ← inRange .generatedColumn t.generatedColumn, source }
  | 5 => do
    let name ← inRange .nameIndex t.nameIndex
    let source ← t.position name
    return { generatedColumn := ← inRange .generatedColumn t.generatedColumn, source }
  | count => .error (.fieldCount count)

/-- Reads one segment: the totals after it and its absolute values. -/
def Totals.read (t : Totals) (text : List Char) : Except SegmentFault (Totals × Segment) :=
  match Vlq.decode text with
  | .error fault => .error (.number fault)
  | .ok values =>
    let t := t.add values
    (t.segment values.length).map fun segment => (t, segment)

/-- The totals after a segment. -/
def Totals.after (t : Totals) (s : Segment) : Totals :=
  let t := { t with generatedColumn := s.generatedColumn.toNat }
  match s.source with
  | none => t
  | some p =>
    let t := { t with
      sourceIndex := p.sourceIndex.toNat
      originalLine := p.originalLine.toNat
      originalColumn := p.originalColumn.toNat }
    match p.nameIndex with
    | none => t
    | some name => { t with nameIndex := name.toNat }

/-- The numbers a segment is written with. -/
def Totals.deltas (t : Totals) (s : Segment) : List Int :=
  let after := t.after s
  let column := after.generatedColumn - t.generatedColumn
  match s.source with
  | none => [column]
  | some p =>
    let fields := [column, after.sourceIndex - t.sourceIndex,
      after.originalLine - t.originalLine, after.originalColumn - t.originalColumn]
    match p.nameIndex with
    | none => fields
    | some _ => fields ++ [after.nameIndex - t.nameIndex]

/-! ## Reading -/

/-- The segments of a group that are not empty. -/
def segmentTexts (group : List Char) : List (List Char) :=
  (Text.split ',' group).filter (· ≠ [])

/-- Reads the segments of one line, the first of them with number `index`. -/
def decodeSegments (t : Totals) (index : Nat) :
    List (List Char) → Except MappingsFault (Totals × List Segment)
  | [] => .ok (t, [])
  | text :: texts => do
    match t.read text with
    | .error fault => .error ⟨index, fault⟩
    | .ok (t, segment) =>
      let (t, segments) ← decodeSegments t (index + 1) texts
      return (t, segment :: segments)

/-- Reads the groups of a mappings text. -/
def decodeGroups (t : Totals) (index : Nat) : List (List Char) → Except MappingsFault Lines
  | [] => .ok []
  | group :: groups => do
    let texts := segmentTexts group
    let (t, segments) ← decodeSegments t index texts
    let lines ← decodeGroups t.nextLine (index + texts.length) groups
    return segments :: lines

/-- Reads a mappings text.  Empty segments are skipped. -/
def decodeChars (text : List Char) : Except MappingsFault Lines :=
  decodeGroups {} 0 (Text.split ';' text)

/-- Reads a mappings text. -/
def decode (text : String) : Except MappingsFault Lines := decodeChars text.toList

/-! ## Writing -/

/-- The text of each segment of a line, and the totals after it. -/
def encodeSegments (t : Totals) : List Segment → List (List Char) × Totals
  | [] => ([], t)
  | s :: segments =>
    let (texts, after) := encodeSegments (t.after s) segments
    ((t.deltas s).flatMap Vlq.encode :: texts, after)

/-- The text of each line. -/
def encodeGroups (t : Totals) : Lines → List (List Char)
  | [] => []
  | segments :: lines =>
    let (texts, after) := encodeSegments t segments
    Text.join ',' texts :: encodeGroups after.nextLine lines

/-- The mappings text of some lines. -/
def encodeChars (lines : Lines) : List Char := Text.join ';' (encodeGroups {} lines)

/-- The mappings text of some lines. -/
def encode (lines : Lines) : String := String.ofList (encodeChars lines)

end BundleCoverage.SourceMap
