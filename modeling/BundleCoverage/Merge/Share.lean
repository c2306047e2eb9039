import BundleCoverage.Coverage.CoverageMap
import BundleCoverage.Merge.Finding
import BundleCoverage.Text.Lines

/-!
# Shares

The share of an entry in a source is all that the entry says about it.  Within a share a
line has the highest of its counts.  When a share is added to the record of the source,
counts are summed, so entries add up.

A line with a known text spans its columns to the end of the line.
-/

namespace BundleCoverage

open Std

/-- What an entry says about a line. -/
structure LineShare where
  /-- The first column. -/
  start : Nat
  /-- The last column. -/
  stop : Nat
  /-- The highest count. -/
  count : Nat
deriving Repr, DecidableEq, Inhabited

/-- What two findings say about a line together. -/
def LineShare.add (a b : LineShare) : LineShare :=
  ⟨min a.start b.start, max a.stop b.stop, max a.count b.count⟩

/-- The location of a line, given the lengths of all lines if they are known. -/
def LineShare.location (s : LineShare) (lengths : Option (Array Nat)) (line : Nat) : Location :=
  let length := if line = 0 then none else lengths.bind (·[line - 1]?)
  .onLine line s.start (max s.stop (length.getD 0))

/-- What an entry says about a source. -/
structure Share where
  /-- The text of the source, if the first finding knows it. -/
  text : Option String := none
  /-- The lines. -/
  lines : ExtTreeMap Nat LineShare := ∅
  /-- The functions with their names, locations and counts. -/
  calls : List (String × Location × Nat) := []
  /-- The blocks with their locations and counts. -/
  blocks : List (Location × Nat) := []
deriving DecidableEq, Inhabited

namespace Share

/-- A share with one more observation. -/
def observe (s : Share) : Observation → Share
  | .presence => s
  | .line line start stop count =>
    let new : LineShare := ⟨start, stop, count⟩
    { s with lines := s.lines.alter line fun old => some ((old.getD new).add new) }
  | .call name location count => { s with calls := s.calls ++ [(name, location, count)] }
  | .block location count => { s with blocks := s.blocks ++ [(location, count)] }

/-- The shares of an entry by canonical path. -/
def ofFindings (findings : List Finding) : ExtTreeMap String Share :=
  findings.foldl
    (fun shares f => shares.alter f.path fun old => some ((old.getD { text := f.text }).observe f.seen))
    ∅

/-- The lengths of the lines of a text. -/
def lineLengths (text : String) : Array Nat := ((Text.lines text.toList).map Text.unitLength).toArray

end Share

/-- A record with a share added. -/
def FileRecord.addShare (f : FileRecord) (s : Share) : FileRecord :=
  let lengths := s.text.map Share.lineLengths
  let f := s.lines.toList.foldl
    (fun f (line, share) => f.addStatement line (share.location lengths line) share.count) f
  let f := s.calls.foldl (fun f (name, location, count) => f.addFunction (some name) location count) f
  let f := s.blocks.foldl (fun f (location, count) => f.addBranch location count) f
  { f with text := f.text <|> s.text }

/-- A map with the shares of an entry added. -/
def CoverageMap.addShares (m : CoverageMap) (shares : ExtTreeMap String Share) : CoverageMap :=
  shares.toList.foldl (fun m (path, share) => m.update path (·.addShare share)) m

end BundleCoverage
