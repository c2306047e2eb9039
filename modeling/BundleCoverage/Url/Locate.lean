import BundleCoverage.Disk.Basic
import BundleCoverage.Url.Basic

/-!
# Files behind URLs

A script is a file if its URL is a file URL or a plain path.  An asset of the bundle, a web
URL or a bare path below `/_next/`, is a file in the build directory: each segment after
the first is decoded and joined.  Other URLs have no file.

A file URL may name a file whose name is not UTF-8.  Disks have no such files, so the path
is only for showing.
-/

namespace BundleCoverage

open Text

/-- The path of a script. -/
structure ScriptPath where
  /-- The path as text. -/
  text : String
  /-- Whether the text is the whole name, without replaced bytes. -/
  exact : Bool := true
deriving Repr, DecidableEq, Inhabited

namespace ScriptPath

/-- A path from its bytes. -/
def ofBytes (bytes : List UInt8) : ScriptPath :=
  match Utf8.strict? bytes with
  | some text => ⟨text, true⟩
  | none => ⟨Utf8.lossy bytes, false⟩

/-- The bytes of the file at a path. -/
def read (path : ScriptPath) (d : Disk) : Except DiskFault (List UInt8) :=
  if path.exact then d.read path.text else .error .notFound

/-- The text of the file at a path. -/
def readText (path : ScriptPath) (d : Disk) : Except DiskFault String :=
  if path.exact then d.readText path.text else .error .notFound

/-- The path with something added to the file name. -/
def addSuffix (path : ScriptPath) (suffix : String) : ScriptPath :=
  { path with text := path.text ++ suffix }

end ScriptPath

namespace Url

/-- Whether a path ends in a letter and a colon or bar. -/
def endsInDrive (bytes : List UInt8) : Bool :=
  match bytes.reverse with
  | c :: d :: _ :: _ => (c == 58 || c == 124) && (Char.ofNat d.toNat).isAlpha
  | _ => false

/-- The file of a file URL without a host. -/
def toFile? (url : Url) : Option ScriptPath :=
  match url.host, url.segments with
  | none, some segments =>
    let bytes := segments.flatMap fun s => 47 :: unescape s
    some (.ofBytes (if endsInDrive bytes then bytes ++ [47] else bytes))
  | _, _ => none

/-- The URL of an absolute path. -/
def ofFilePath (path : String) : Url :=
  let names := (Path.components path).drop 1
  let segments := names.map fun c => escape needsNameEscape c.text.toList
  { scheme := "file", segments := some (if segments.isEmpty then [[]] else segments) }

/-- The first segment of the path of an asset. -/
def assetDirectory : List Char := "_next".toList

/-- The path of an asset in the build directory. -/
def assetPath? (url : Url) (buildDirectory : String) : Option String :=
  match url.segments with
  | some (first :: rest) =>
    if first = assetDirectory then
      rest.foldlM (fun path segment => (Utf8.strict? (unescape segment)).map (Path.join path))
        buildDirectory
    else none
  | _ => none

/-- Whether a text starts with a drive letter, a colon and a slash. -/
def hasDriveLetter (text : String) : Bool :=
  match text.toList with
  | c :: ':' :: d :: _ => c.isAlpha && isSlash d
  | _ => false

end Url

/-- The file of a script that is no asset. -/
def scriptFile? (url : String) : Option ScriptPath :=
  if url.isEmpty then none
  else if Url.hasDriveLetter url then some ⟨url, true⟩
  else
    match Url.parse url with
    | .ok parsed => if parsed.scheme = "file" then parsed.toFile? else none
    | .error .relative => some ⟨url, true⟩
    | .error _ => none

/-- The base of bare asset paths. -/
def assetBase : Url := { scheme := "http", host := some "localhost".toList, segments := some [[]] }

/-- The file of a script, with assets in the build directory. -/
def locateScript (url buildDirectory : String) : Option ScriptPath :=
  let asset (u : Url) : Option ScriptPath := (u.assetPath? buildDirectory).map (⟨·, true⟩)
  if startsWith url.toList "/_next/".toList then
    match Url.join assetBase url with
    | .ok u => asset u
    | .error _ => none
  else
    match Url.parse url with
    | .ok u => if u.scheme = "http" || u.scheme = "https" then asset u else scriptFile? url
    | .error _ => scriptFile? url

end BundleCoverage
