import BundleCoverage.Base64
import BundleCoverage.SourceMap.Document
import BundleCoverage.Text.Split
import BundleCoverage.Url.Locate

/-!
# Finding the source map of a script

The map of a script is the file next to it whose name has `.map` added, or else what the
last `sourceMappingURL=` in its text refers to: a data URL that holds the map, or a file
relative to the script.  A map that is broken does not keep a later one from being found.

Data URLs have to be JSON in base 64.
-/

namespace BundleCoverage

open Text

/-- Why a map that is there cannot be used. -/
inductive MapFault where
  /-- The document is no source map. -/
  | document (e : Error)
  /-- A data URL of another media type, of which the first characters are given. -/
  | mediaType (start : String)
  /-- A data URL without a comma. -/
  | noPayload
  /-- A data URL that is not in base 64. -/
  | notBase64
  /-- A data URL whose base 64 is broken. -/
  | brokenPayload
deriving Repr, DecidableEq

/-- The wording of a fault. -/
def MapFault.message : MapFault → String
  | .document e => e.message
  | .mediaType start => s!"unsupported data URL media type: {start}"
  | .noPayload => "data URL without payload"
  | .notBase64 => "only base64 data URLs are supported"
  | .brokenPayload => "invalid base64 payload"

/-- What a search for a map led to. -/
inductive MapLookup where
  /-- A map. -/
  | found (map : SourceMap)
  /-- No map. -/
  | absent
  /-- No map but a broken one. -/
  | malformed (fault : MapFault)
deriving Repr, DecidableEq

namespace MapLookup

/-- The map, if one was found. -/
def map? : MapLookup → Option SourceMap
  | .found map => some map
  | _ => none

/-- The first map of two searches.  Without one, the later broken map counts. -/
def orElse : MapLookup → MapLookup → MapLookup
  | .found map, _ => .found map
  | first, .absent => first
  | _, second => second

/-- A map read from bytes. -/
def ofBytes (bytes : List UInt8) : MapLookup :=
  match SourceMap.ofBytes bytes with
  | .ok map => .found map
  | .error e => .malformed (.document e)

/-- A map read from a file. -/
def ofFile (d : Disk) (path : ScriptPath) : MapLookup :=
  match path.read d with
  | .ok bytes => ofBytes bytes
  | .error _ => .absent

/-- What a data URL of JSON starts with. -/
def dataUrlStart : List Char := "data:application/json".toList

/-- Whether a parameter of a data URL says that the payload is in base 64. -/
def isBase64Mark (parameter : List Char) : Bool := parameter.map Char.toLower == "base64".toList

/-- The bytes in a data URL of JSON. -/
def dataUrlPayload? (url : List Char) : Except MapFault (List UInt8) :=
  match stripPrefix? dataUrlStart url with
  | none => .error (.mediaType (String.ofList (url.take 40)))
  | some rest =>
    match splitOnce ',' rest with
    | (_, none) => .error .noPayload
    | (parameters, some payload) =>
      if (split ';' parameters).any isBase64Mark then
        match Base64.decode? (trim payload) with
        | some bytes => .ok bytes
        | none => .error .brokenPayload
      else .error .notBase64

/-- A map read from a data URL. -/
def ofDataUrl (url : List Char) : MapLookup :=
  match dataUrlPayload? url with
  | .ok bytes => ofBytes bytes
  | .error fault => .malformed fault

end MapLookup

/-- The mark in front of a reference to a map. -/
def referenceMark : List Char := "sourceMappingURL=".toList

/-- Whether a character ends a reference. -/
def endsReference (c : Char) : Bool := isBlank c || c = '*' || c = '"' || c = '\''

/-- The last reference to a map in the text of a script. -/
def mapReference? (code : List Char) : Option (List Char) := do
  let after ← afterLast? referenceMark code
  let reference := after.takeWhile (!endsReference ·)
  if reference = [] then none else some reference

/-- The file that a reference in a script leads to. -/
def referencedFile? (d : Disk) (script : ScriptPath) (reference : List Char) :
    Option ScriptPath :=
  match Url.join (.ofFilePath (Path.join d.workingPath script.text)) (String.ofList reference) with
  | .ok url => if url.scheme = "file" then url.toFile? else none
  | .error _ => none

namespace MapLookup

/-- The map next to a script. -/
def adjacent (d : Disk) (script : Option ScriptPath) : MapLookup :=
  match script with
  | some path => ofFile d (path.addSuffix ".map")
  | none => .absent

/-- The map that a script refers to. -/
def referenced (d : Disk) (script : Option ScriptPath) (code : String) : MapLookup :=
  match mapReference? code.toList with
  | none => .absent
  | some reference =>
    if startsWith reference "data:".toList then ofDataUrl reference
    else
      match script.bind (referencedFile? d · reference) with
      | some path => ofFile d path
      | none => .absent

/-- Searches for the map of a script. -/
def ofScript (d : Disk) (buildDirectory url code : String) : MapLookup :=
  let script := locateScript url buildDirectory
  (adjacent d script).orElse (referenced d script code)

end MapLookup

end BundleCoverage
