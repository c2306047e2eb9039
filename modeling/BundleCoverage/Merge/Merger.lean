import BundleCoverage.Merge.Seed
import BundleCoverage.Merge.Share

/-!
# Merging

A merger builds a coverage map from entries, one after another.  An entry without ranges
or without a script adds nothing, and neither does one that says nothing about a source
in scope.
-/

namespace BundleCoverage

/-- What a merge came to. -/
structure MergeStats where
  /-- The entries that were given. -/
  entries : Nat := 0
  /-- The entries that said something about a source in scope. -/
  contributed : Nat := 0
  /-- The files that were seeded. -/
  seeded : Nat := 0
deriving Repr, DecidableEq, Inhabited

/-- A merge under way. -/
structure Merger where
  /-- The scripts resolved so far. -/
  resolver : Resolver
  /-- The sources in scope. -/
  filter : SourceFilter
  /-- The coverage so far. -/
  map : CoverageMap := {}
  /-- The counters. -/
  stats : MergeStats := {}

namespace Merger

/-- A merge that has not begun. -/
def new (buildDirectory : String) (filter : SourceFilter) : Merger :=
  { resolver := { buildDirectory }, filter }

/-- Adds what an entry says to the coverage.  Says whether there was anything. -/
def addFindings (m : Merger) (findings : List Finding) : Bool × Merger :=
  if findings.isEmpty then (false, m)
  else
    (true,
      { m with
        map := m.map.addShares (Share.ofFindings findings)
        stats := { m.stats with contributed := m.stats.contributed + 1 } })

/-- Adds an entry.  Says whether it told about any source in scope. -/
def add (m : Merger) (d : Disk) (e : Entry) : Bool × Merger :=
  let m := { m with stats := { m.stats with entries := m.stats.entries + 1 } }
  if e.hasRanges then
    let (script, resolver) := m.resolver.resolve d e
    let m := { m with resolver }
    match script with
    | some s => m.addFindings (s.findings m.filter e)
    | none => (false, m)
  else (false, m)

/-- Adds some entries in order. -/
def addAll (m : Merger) (d : Disk) (entries : List Entry) : Merger :=
  entries.foldl (fun m e => (m.add d e).2) m

/-- Seeds the sources of a project.  Gives their number as well. -/
def seed (m : Merger) (d : Disk) (projectRoot sourceRoot : String) : Nat × Merger :=
  let seeds := Seed.ofProject d m.filter projectRoot sourceRoot
  (seeds.length,
    { m with
      map := seeds.foldl .addSeed m.map
      stats := { m.stats with seeded := m.stats.seeded + seeds.length } })

end Merger

end BundleCoverage
