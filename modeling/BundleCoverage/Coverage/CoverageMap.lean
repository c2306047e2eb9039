import BundleCoverage.Coverage.FileRecord

/-!
# Coverage maps

A coverage map holds the records of some sources by their canonical paths.  The record of a
source that is new to the map is given this path.
-/

namespace BundleCoverage

open Std

/-- The coverage of some sources. -/
structure CoverageMap where
  /-- The records by canonical path. -/
  files : ExtTreeMap String FileRecord := ∅
deriving DecidableEq, Inhabited

namespace CoverageMap

/-- The record of a source. -/
def get? (m : CoverageMap) (path : String) : Option FileRecord := m.files[path]?

/-- Whether there is a record of a source. -/
def contains (m : CoverageMap) (path : String) : Bool := m.files.contains path

/-- Changes the record of a source, starting from an empty one if there is none. -/
def update (m : CoverageMap) (path : String) (change : FileRecord → FileRecord) : CoverageMap :=
  ⟨m.files.alter path fun old => some (change (old.getD (.empty path)))⟩

/-- The records with their paths, in order. -/
def toList (m : CoverageMap) : List (String × FileRecord) := m.files.toList

/-- The paths, in order. -/
def paths (m : CoverageMap) : List String := m.files.keys

/-- The number of sources. -/
def size (m : CoverageMap) : Nat := m.files.size

/-- Whether there is no source. -/
def isEmpty (m : CoverageMap) : Bool := m.files.isEmpty

/-- The summary of all sources. -/
def summary (m : CoverageMap) : Summary :=
  (m.files.values.map FileRecord.summary).foldl Summary.add {}

end CoverageMap

end BundleCoverage
