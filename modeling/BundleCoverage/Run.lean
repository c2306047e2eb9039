import BundleCoverage.Cache.Basic
import BundleCoverage.Log.Merging
import BundleCoverage.Options.Validate
import BundleCoverage.Report.Registry

/-!
# Runs

A run merges the entries of the cache and makes the reports.  The cache stays as it is, so
a run that fails can be made again without collecting again; removing the cache is a step
of its own.
-/

namespace BundleCoverage

/-- What a run came to. -/
structure Report where
  /-- The merged coverage. -/
  map : CoverageMap
  /-- The tallies over all sources. -/
  summary : Summary
  /-- The paths of the reports that were written. -/
  written : List String
  /-- The counters of the merge. -/
  stats : MergeStats

/-- Merging and reporting by some options. -/
structure Run where
  /-- The options. -/
  options : Options
  /-- The reporters. -/
  registry : ReporterRegistry := .builtin

namespace Run

/-- A run by options that are valid. -/
def ofOptions (d : Disk) (o : Options) : Except Error Run := do
  o.validate d
  return { options := o }

/-- The cache of a run. -/
def cache (r : Run) : Cache := ⟨r.options.cacheDirectory⟩

/-- Merges some entries, after seeding if the options say so. -/
def merge (r : Run) (h : Host) (entries : List Entry) : Host × Except Error Merger :=
  match r.options.sourceFilter with
  | .error e => (h, .error e)
  | .ok filter =>
    let start := Merger.new r.options.buildDirectory filter
    let root := r.options.projectRoot
    let source := r.options.sourceRoot
    let (seeded, events) :=
      if r.options.seedAll then
        ((start.seed h.disk root source).2, start.seedEvents h.disk root source)
      else (start, [])
    (h.log (events ++ seeded.addAllEvents h.disk entries ++ [.merged]),
      .ok (seeded.addAll h.disk entries))

/-- Makes the reports of a merge. -/
def emit (r : Run) (h : Host) (merger : Merger) : Host × Except Error Report :=
  let map := merger.map
  let h := if map.isEmpty then h.log [.mergedNothing] else h
  match r.registry.emitAll map r.options.outputDirectory r.options.reporters h with
  | (h, .error e) => (h, .error e)
  | (h, .ok written) =>
    (h.log [.reportsGenerated], .ok ⟨map, map.summary, written, merger.stats⟩)

/-- Merges some entries and makes the reports.  Without entries there is nothing to
report. -/
def report (r : Run) (h : Host) (entries : List Entry) : Host × Except Error (Option Report) :=
  if entries.isEmpty then (h.log [.nothingCollected], .ok none)
  else
    match r.merge h entries with
    | (h, .error e) => (h, .error e)
    | (h, .ok merger) =>
      let (h, result) := r.emit h merger
      (h, result.map some)

/-- Merges the entries of the cache and makes the reports. -/
def run (r : Run) (h : Host) : Host × Except Error (Option Report) :=
  let h := h.log (r.cache.loadEvents h.disk)
  match r.cache.load h.disk with
  | .error e => (h, .error e)
  | .ok contents => r.report (h.log [.entriesLoaded]) contents.entries

/-- Removes the cache.  Says whether there was one. -/
def cleanUp (r : Run) (h : Host) : Host × Except Error Bool :=
  let (disk, result) := r.cache.clean h.disk
  let events : List Event := match result with
    | .ok true => [.cacheRemoved]
    | _ => []
  ({ h with disk }.log events, result)

/-- Merges the entries of the cache, makes the reports, and then removes the cache. -/
def runAndCleanUp (r : Run) (h : Host) : Host × Except Error (Option Report) :=
  match r.run h with
  | (h, .error e) => (h, .error e)
  | (h, .ok report) =>
    let (h, result) := r.cleanUp h
    (h, result.map fun _ => report)

end Run

end BundleCoverage
