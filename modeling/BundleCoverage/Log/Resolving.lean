import BundleCoverage.Log.Event
import BundleCoverage.Script.Resolved

/-!
# Events of resolving a script

Resolving a script tells about each thing that is missing or broken, in the order in which
it is found.  A script that was resolved before is told about no more.
-/

namespace BundleCoverage

namespace SourceMap

mutual

/-- The events of flattening a document.  They end with the first section that fails. -/
def Document.events : Document → List Event
  | .plain _ => []
  | .sectioned version _ sections => if version = 3 then sectionEvents true sections else []

/-- The events of flattening some sections; `first` says that no section before them had a
document of its own. -/
def sectionEvents (first : Bool) : List Section → List Event
  | [] => []
  | .elsewhere :: rest => .sectionSkipped :: sectionEvents first rest
  | .embedded offset document :: rest =>
    match document.toMap with
    | .error _ => document.events
    | .ok _ =>
      document.events
        ++ (if first && offset ≠ {} then [.sectionOffset] else [])
        ++ sectionEvents false rest

end

/-- The events of reading a source map. -/
def readEvents (bytes : List UInt8) : List Event :=
  (((Json.parseBytes? bytes).bind (Document.ofJson? maxDocumentDepth)).map Document.events).getD []

end SourceMap

namespace MapLookup

open Text

/-- The events of reading a map from a file. -/
def fileEvents (d : Disk) (path : ScriptPath) : List Event :=
  ((path.read d).toOption.map SourceMap.readEvents).getD []

/-- The events of reading a map from a data URL. -/
def dataUrlEvents (url : List Char) : List Event :=
  ((dataUrlPayload? url).toOption.map SourceMap.readEvents).getD []

/-- The events of looking for the map next to a script. -/
def adjacentEvents (d : Disk) (script : Option ScriptPath) : List Event :=
  match script with
  | some path => fileEvents d (path.addSuffix ".map")
  | none => []

/-- The events of looking for the map that a script refers to. -/
def referencedEvents (d : Disk) (script : Option ScriptPath) (code : String) : List Event :=
  match mapReference? code.toList with
  | none => []
  | some reference =>
    if startsWith reference "data:".toList then dataUrlEvents reference
    else ((script.bind (referencedFile? d · reference)).map (fileEvents d)).getD []

/-- The event of a search that found no map. -/
def events : MapLookup → List Event
  | .found _ => []
  | .absent => [.noSourceMap]
  | .malformed _ => [.brokenSourceMap]

end MapLookup

/-- The events of looking for the file of a script. -/
def urlEvents (url : String) : List Event :=
  if Url.hasDriveLetter url then []
  else
    match Url.parse url with
    | .error .relative | .ok _ => []
    | .error _ => [.urlUnreadable]

/-- The events of looking for the source map of a script. -/
def mapEvents (d : Disk) (buildDirectory url code : String) : List Event :=
  let script := locateScript url buildDirectory
  let referenced :=
    if (MapLookup.adjacent d script).map?.isSome then []
    else MapLookup.referencedEvents d script code
  urlEvents url ++ MapLookup.adjacentEvents d script ++ referenced
    ++ (MapLookup.ofScript d buildDirectory url code).events

namespace Entry

/-- The events of getting the text of the script of an entry. -/
def codeEvents (d : Disk) (buildDirectory : String) (e : Entry) : List Event :=
  if (e.source.filter (· ≠ "")).isSome then []
  else
    match locateScript e.url buildDirectory with
    | none => urlEvents e.url
    | some path => if (path.readText d).toOption.isSome then [] else [.scriptUnreadable]

/-- The events of resolving the script of an entry. -/
def resolveEvents (d : Disk) (buildDirectory : String) (e : Entry) : List Event :=
  e.codeEvents d buildDirectory ++
    match e.code? d buildDirectory with
    | none => []
    | some code =>
      let map? := (MapLookup.ofScript d buildDirectory e.url code).map?
      mapEvents d buildDirectory e.url code
        ++ (if map?.isSome && (map?.bind ReadMap.ofMap?).isNone then [.brokenMappings] else [])

end Entry

/-- The events of resolving the script of an entry, unless its URL is known. -/
def Resolver.events (r : Resolver) (d : Disk) (e : Entry) : List Event :=
  if r.scripts.contains e.url then [] else e.resolveEvents d r.buildDirectory

end BundleCoverage
