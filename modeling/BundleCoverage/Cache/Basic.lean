import BundleCoverage.Cache.TestIdentity
import BundleCoverage.Disk.Basic
import BundleCoverage.Error
import BundleCoverage.Json.Parse
import BundleCoverage.Json.Print
import BundleCoverage.Script.Entry
import BundleCoverage.Text.Search

/-!
# The cache

What the collectors captured is kept in a directory until it is merged: one document for
each test, and one for each run of the server.  A document is written under another name
and then moved into place, so a reader never sees a part of it.

A document that cannot be read is passed over when the cache is loaded.
-/

namespace BundleCoverage

open Text

/-- A directory of documents. -/
structure Cache where
  /-- The path of the directory. -/
  directory : String
deriving Repr, DecidableEq, Inhabited

/-- Who captured a document. -/
inductive CacheOrigin where
  /-- A test in the browser. -/
  | client
  /-- A run of the server. -/
  | server
deriving Repr, DecidableEq, Inhabited

/-- What the names of documents start with. -/
def CacheOrigin.mark : CacheOrigin → String
  | .client => "client-"
  | .server => "server-"

/-- What tells runs of the server apart. -/
structure RunStamp where
  /-- The time in UTC, to the millisecond. -/
  time : String
  /-- Eight random digits. -/
  id : String
deriving Repr, DecidableEq, Inhabited

/-- The entries of a cache. -/
structure CacheContents where
  /-- Those of the browser, by document name. -/
  client : List Entry := []
  /-- Those of the server, by document name. -/
  server : List Entry := []
deriving Repr, DecidableEq, Inhabited

/-- All entries, those of the browser first. -/
def CacheContents.entries (c : CacheContents) : List Entry := c.client ++ c.server

namespace Cache

/-- The ending of the names of documents. -/
def documentEnding : String := ".json"

/-- The path of a document. -/
def path (c : Cache) (name : String) : String := Path.join c.directory (name ++ documentEnding)

/-- The path that a document has while it is written. -/
def draftPath (c : Cache) (name : String) : String := c.path name ++ ".tmp"

/-- The path of the document of a test. -/
def clientPath (c : Cache) (i : TestIdentity) : String := c.path (CacheOrigin.client.mark ++ i.key)

/-- The name of the document of a run of the server. -/
def serverName (s : RunStamp) : String := s!"{CacheOrigin.server.mark}{s.time}-{s.id}"

/-! ## Writing -/

/-- An attempt to change a disk. -/
abbrev Step := Disk → Except Error Disk

/-- Makes the directory. -/
def prepare (c : Cache) : Step := fun d =>
  (d.makeDirectories c.directory).mapError fun _ =>
    .cache c.directory (some "cannot create directory")

/-- Writes the draft of a document. -/
def draft (c : Cache) (name : String) (entries : List Entry) : Step := fun d =>
  (d.write (c.draftPath name) (Utf8.encode (Entry.document entries).compact)).mapError fun _ =>
    .cache (c.draftPath name) none

/-- Moves the draft of a document into place. -/
def publish (c : Cache) (name : String) : Step := fun d =>
  (d.rename (c.draftPath name) (c.path name)).mapError fun _ => .cache (c.path name) none

/-- Makes some steps until one fails.  The steps before stay made. -/
def perform (d : Disk) : List Step → Disk × Except Error Unit
  | [] => (d, .ok ())
  | step :: steps =>
    match step d with
    | .ok d => perform d steps
    | .error e => (d, .error e)

/-- The steps of writing a document. -/
def writeSteps (c : Cache) (name : String) (entries : List Entry) : List Step :=
  [c.prepare, c.draft name entries, c.publish name]

/-- Writes a document and gives its path. -/
def write (c : Cache) (d : Disk) (name : String) (entries : List Entry) :
    Disk × Except Error String :=
  let (d, result) := perform d (c.writeSteps name entries)
  (d, result.map fun _ => c.path name)

/-- Writes the document of a test. -/
def writeClient (c : Cache) (d : Disk) (i : TestIdentity) (entries : List Entry) :
    Disk × Except Error String :=
  c.write d (CacheOrigin.client.mark ++ i.key) entries

/-- Writes the document of a run of the server. -/
def writeServer (c : Cache) (d : Disk) (s : RunStamp) (entries : List Entry) :
    Disk × Except Error String :=
  c.write d (serverName s) entries

/-! ## Reading -/

/-- Reads a document. -/
def readDocument (d : Disk) (path : String) : Except Error (List Entry) :=
  match d.read path with
  | .error _ => .error (.cache path none)
  | .ok bytes =>
    match (Json.parseBytes? bytes).bind Entry.ofDocument? with
    | some entries => .ok entries
    | none => .error (.cache path (some "invalid document"))

/-- Whether a document of an origin can have a name. -/
def isDocumentName (origin : CacheOrigin) (name : String) : Bool :=
  startsWith name.toList origin.mark.toList && endsWith name.toList documentEnding.toList

/-- The paths of the documents of an origin, in order. -/
def documentPaths (c : Cache) (d : Disk) (origin : CacheOrigin) : Except Error (List String) :=
  match d.list c.directory with
  | .error .notFound => .ok []
  | .error .unusable => .error (.cache c.directory none)
  | .ok names =>
    .ok (((names.filter (isDocumentName origin)).map (Path.join c.directory)).filter d.isFile)

/-- The entries of the documents of an origin. -/
def loadOrigin (c : Cache) (d : Disk) (origin : CacheOrigin) : Except Error (List Entry) :=
  (c.documentPaths d origin).map (·.flatMap fun path => ((readDocument d path).toOption).getD [])

/-- The entries of all documents. -/
def load (c : Cache) (d : Disk) : Except Error CacheContents := do
  return ⟨← c.loadOrigin d .client, ← c.loadOrigin d .server⟩

/-! ## Removing -/

/-- Removes the directory.  Says whether there was one. -/
def clean (c : Cache) (d : Disk) : Disk × Except Error Bool :=
  match d.removeDirectory c.directory with
  | (d, .ok ()) => (d, .ok true)
  | (d, .error .notFound) => (d, .ok false)
  | (d, .error .unusable) => (d, .error (.cache c.directory none))

end Cache

end BundleCoverage
