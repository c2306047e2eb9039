import BundleCoverage.Cache.Basic
import BundleCoverage.Log.Resolving
import BundleCoverage.Merge.Merger

/-!
# Events of merging

The events of loading a cache, of seeding a project and of merging entries, each in the
order of the work.
-/

namespace BundleCoverage

/-- The events of loading the documents of an origin. -/
def Cache.originEvents (c : Cache) (d : Disk) (origin : CacheOrigin) : List Event :=
  match c.documentPaths d origin with
  | .error _ => []
  | .ok paths =>
    paths.filterMap fun path =>
      if (readDocument d path).toOption.isSome then none else some .documentSkipped

/-- The events of loading a cache. -/
def Cache.loadEvents (c : Cache) (d : Disk) : List Event :=
  c.originEvents d .client ++ c.originEvents d .server

namespace Merger

/-- The events of seeding a project. -/
def seedEvents (m : Merger) (d : Disk) (projectRoot sourceRoot : String) : List Event :=
  let skipped := (Seed.candidates m.filter projectRoot
    (Seed.filesOf d projectRoot sourceRoot)).filter fun (file, _) =>
      (d.readText file).toOption.isNone
  skipped.map (fun _ => .seedUnreadable) ++ [.filesSeeded]

/-- The events of adding an entry. -/
def addEvents (m : Merger) (d : Disk) (e : Entry) : List Event :=
  if e.hasRanges then
    m.resolver.events d e ++
      match m.resolver.script? d e with
      | none => [.entryDropped]
      | some script => if (script.findings m.filter e).isEmpty then [.entryOutOfScope] else []
  else []

/-- The events of adding some entries in order. -/
def addAllEvents (m : Merger) (d : Disk) : List Entry → List Event
  | [] => []
  | e :: entries => m.addEvents d e ++ addAllEvents (m.add d e).2 d entries

end Merger

end BundleCoverage
