import BundleCoverage.Disk.Path
import BundleCoverage.Text.Utf8
import Std.Data.ExtTreeMap.Basic

/-!
# Disks

A disk is a tree of directories and files, kept as a map from places to what is there.
A place is the list of names from the root; the root itself is always a directory.

Paths are followed from the working directory step by step: each step needs a directory,
and two points lead to the one above.  Operations give the new disk, or say why they
failed.
-/

namespace BundleCoverage

/-- A place on a disk: the names from the root. -/
abbrev Place := List String

/-- What is at a place. -/
inductive Node where
  /-- A directory. -/
  | directory
  /-- A file with its bytes. -/
  | file (bytes : List UInt8)
deriving Repr, DecidableEq, Inhabited

/-- Why an operation failed. -/
inductive DiskFault where
  /-- There is nothing at the path. -/
  | notFound
  /-- What is at the path is of the wrong kind, or the path cannot be used. -/
  | unusable
deriving Repr, DecidableEq, Inhabited

/-- A tree of directories and files. -/
structure Disk where
  /-- What is where. -/
  nodes : Std.ExtTreeMap Place Node
  /-- The directory that relative paths start from. -/
  workingDirectory : Place := []
deriving DecidableEq

namespace Disk

open Text

/-- A disk without files. -/
def empty : Disk := { nodes := ∅ }

instance : Inhabited Disk := ⟨empty⟩

/-- The path of the working directory. -/
def workingPath (d : Disk) : String := "/" ++ "/".intercalate d.workingDirectory

/-- What is at a place. -/
def node? (d : Disk) (place : Place) : Option Node :=
  if place = [] then some .directory else d.nodes[place]?

/-- Whether there is a directory at a place. -/
def isDirectoryAt (d : Disk) (place : Place) : Bool := d.node? place == some .directory

/-- The pieces of a path, and where it starts. -/
def startOf (d : Disk) (path : String) : Except DiskFault (Place × List String) :=
  if path.isEmpty then .error .notFound
  else if path.toList.contains '\x00' then .error .unusable
  else
    .ok (if Path.isAbsolute path then [] else d.workingDirectory,
      (split '/' path.toList).map String.ofList)

/-- Follows the pieces of a path. -/
def follow (d : Disk) (place : Place) : List String → Except DiskFault Place
  | [] => .ok place
  | piece :: pieces =>
    match d.node? place with
    | none => .error .notFound
    | some (.file _) => .error .unusable
    | some .directory =>
      if piece = "" || piece = "." then follow d place pieces
      else if piece = ".." then follow d place.dropLast pieces
      else follow d (place ++ [piece]) pieces

/-- The place of a path.  There may be nothing at the last step. -/
def locate (d : Disk) (path : String) : Except DiskFault Place := do
  let (start, pieces) ← d.startOf path
  d.follow start pieces

/-- What is at a path. -/
def get (d : Disk) (path : String) : Except DiskFault Node := do
  match d.node? (← d.locate path) with
  | some node => return node
  | none => throw .notFound

/-- Whether there is a file at a path. -/
def isFile (d : Disk) (path : String) : Bool :=
  match d.get path with
  | .ok (.file _) => true
  | _ => false

/-- Whether there is a directory at a path. -/
def isDirectory (d : Disk) (path : String) : Bool :=
  match d.get path with
  | .ok .directory => true
  | _ => false

/-- The place of what is at a path. -/
def canonical? (d : Disk) (path : String) : Option Place :=
  match d.locate path with
  | .ok place => if (d.node? place).isSome then some place else none
  | .error _ => none

/-- The bytes of a file. -/
def read (d : Disk) (path : String) : Except DiskFault (List UInt8) := do
  match ← d.get path with
  | .file bytes => return bytes
  | .directory => throw .unusable

/-- The text of a file. -/
def readText (d : Disk) (path : String) : Except DiskFault String := do
  match Utf8.strict? (← d.read path) with
  | some text => return text
  | none => throw .unusable

/-! ## Changes -/

/-- Puts something at a place. -/
def set (d : Disk) (place : Place) (node : Node) : Disk :=
  { d with nodes := d.nodes.insert place node }

/-- Follows the pieces of a path and makes the directories that are missing. -/
def makeAlong (d : Disk) (place : Place) : List String → Except DiskFault Disk
  | [] => .ok d
  | piece :: pieces =>
    if piece = "" || piece = "." then makeAlong d place pieces
    else if piece = ".." then makeAlong d place.dropLast pieces
    else
      let next := place ++ [piece]
      match d.node? next with
      | some .directory => makeAlong d next pieces
      | some (.file _) => .error .unusable
      | none => makeAlong (d.set next .directory) next pieces

/-- Makes a directory and those it lies in.  The empty path is there already. -/
def makeDirectories (d : Disk) (path : String) : Except DiskFault Disk :=
  if path.isEmpty then .ok d
  else do
    let (start, pieces) ← d.startOf path
    d.makeAlong start pieces

/-- Writes a file, in place of one that is there. -/
def write (d : Disk) (path : String) (bytes : List UInt8) : Except DiskFault Disk := do
  let place ← d.locate path
  if d.isDirectoryAt place || path.toList.getLast? = some '/' then throw .unusable
  return d.set place (.file bytes)

/-- Moves a file to another path, in place of a file that is there. -/
def rename (d : Disk) (path target : String) : Except DiskFault Disk := do
  let place ← d.locate path
  let goal ← d.locate target
  match d.node? place with
  | some (.file bytes) =>
    if d.isDirectoryAt goal then throw .unusable
    return { d with nodes := (d.nodes.erase place).insert goal (.file bytes) }
  | some .directory => throw .unusable
  | none => throw .notFound

/-- Removes a place and all below it. -/
def removeAt (d : Disk) (place : Place) : Disk :=
  { d with nodes := d.nodes.filter fun p _ => !place.isPrefixOf p }

/-- Removes all below a place. -/
def removeBelow (d : Disk) (place : Place) : Disk :=
  { d with nodes := d.nodes.filter fun p _ => !place.isPrefixOf p || p == place }

/-- Removes a directory and all below it.  A directory that is named by points is emptied,
but cannot be removed itself.  Gives the disk after the attempt as well. -/
def removeDirectory (d : Disk) (path : String) : Disk × Except DiskFault Unit :=
  match d.locate path with
  | .error e => (d, .error e)
  | .ok place =>
    match d.node? place with
    | none => (d, .error .notFound)
    | some (.file _) => (d, .error .unusable)
    | some .directory =>
      let last := ((split '/' path.toList).filter (· ≠ [])).getLast?
      if last = some ['.'] || last = some ['.', '.'] || place = [] then
        (d.removeBelow place, .error .unusable)
      else (d.removeAt place, .ok ())

/-! ## Listings -/

/-- The names in a directory, in order. -/
def children (d : Disk) (place : Place) : List String :=
  d.nodes.keys.filterMap fun p =>
    if place.isPrefixOf p && p.length == place.length + 1 then p.getLast? else none

/-- The names in the directory at a path, in order. -/
def list (d : Disk) (path : String) : Except DiskFault (List String) := do
  let place ← d.locate path
  match d.node? place with
  | some .directory => return d.children place
  | some (.file _) => throw .unusable
  | none => throw .notFound

/-- The files below a place with their bytes, each by the names from there, in order. -/
def filesBelow (d : Disk) (place : Place) : List (Place × List UInt8) :=
  d.nodes.toList.filterMap fun (p, node) =>
    match node with
    | .file bytes =>
      if place.isPrefixOf p then some (p.drop place.length, bytes) else none
    | .directory => none

end Disk

end BundleCoverage
