import BundleCoverage.Script.Entry
import BundleCoverage.Script.OffsetMapper
import BundleCoverage.SourceMap.Lookup

/-!
# Resolved scripts

A resolved script is the text of a bundled script with its source map, if it has one whose
mappings can be read.  The text is the one captured with the entry, or that of the file
behind its URL.

A resolver keeps what it resolved by URL, failures included, so that an entry shares the
result of an earlier one with the same URL.
-/

namespace BundleCoverage

open Std

/-- A source map with its mappings read. -/
structure ReadMap where
  /-- The map. -/
  map : SourceMap
  /-- Its mappings. -/
  table : SourceMap.MappingTable
deriving Repr, DecidableEq

/-- A map with its mappings, if they can be read. -/
def ReadMap.ofMap? (map : SourceMap) : Option ReadMap :=
  match map.mappingTable with
  | .ok table => some ⟨map, table⟩
  | .error _ => none

/-- A bundled script with its text and source map. -/
structure ResolvedScript where
  /-- The URL the script was reported under. -/
  url : String
  /-- The text. -/
  code : String
  /-- The source map, if there is one that can be used. -/
  readMap : Option ReadMap := none
deriving Repr, DecidableEq, Inhabited

namespace ResolvedScript

/-- The canonical form of the URL. -/
def path (s : ResolvedScript) : String := SourcePath.normalize s.url

/-- What relates the script to its sources, if it has a map. -/
def mapper? (s : ResolvedScript) : Option OffsetMapper :=
  s.readMap.map fun m => ⟨m.map, m.table, .ofText s.code⟩

end ResolvedScript

/-- The text of the script of an entry. -/
def Entry.code? (d : Disk) (buildDirectory : String) (e : Entry) : Option String :=
  match e.source.filter (· ≠ "") with
  | some code => some code
  | none => (locateScript e.url buildDirectory).bind fun path => (path.readText d).toOption

/-- The script of an entry. -/
def Entry.resolve? (d : Disk) (buildDirectory : String) (e : Entry) : Option ResolvedScript :=
  (e.code? d buildDirectory).map fun code =>
    { url := e.url, code
      readMap := (MapLookup.ofScript d buildDirectory e.url code).map?.bind ReadMap.ofMap? }

/-- The scripts resolved so far, by URL. -/
structure Resolver where
  /-- The directory of the build. -/
  buildDirectory : String
  /-- What each URL was resolved to. -/
  scripts : ExtTreeMap String (Option ResolvedScript) := ∅
deriving DecidableEq, Inhabited

namespace Resolver

/-- The script of an entry, as it was resolved for its URL the first time. -/
def script? (r : Resolver) (d : Disk) (e : Entry) : Option ResolvedScript :=
  (r.scripts[e.url]?).getD (e.resolve? d r.buildDirectory)

/-- The script of an entry, and a resolver that knows it. -/
def resolve (r : Resolver) (d : Disk) (e : Entry) : Option ResolvedScript × Resolver :=
  let script := r.script? d e
  (script, { r with scripts := r.scripts.insert e.url script })

/-- The number of URLs that are known. -/
def size (r : Resolver) : Nat := r.scripts.size

/-- A resolver that knows no script. -/
def clear (r : Resolver) : Resolver := { r with scripts := ∅ }

end Resolver

end BundleCoverage
