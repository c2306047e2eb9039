import BundleCoverage.Coverage.CoverageMap
import BundleCoverage.Disk.Basic
import BundleCoverage.Scope.SourceFilter
import BundleCoverage.Script.CodeLines
import BundleCoverage.SourcePath

/-!
# Seeds

A seed is a source file on the disk.  Every file below the source directory of a project
is one if its path from the project root is in scope and its bytes are text.  Seeding
enters its lines with code, not executed.

The files are found by walking from the source directory as it is spelled, except that
points in front of a relative path are dropped and slashes are not doubled, and a path from
the project root has to start as the root is spelled.  So nothing is found below a root that is
spelled with a point in front.
-/

namespace BundleCoverage

open Text

/-- A source file on the disk. -/
structure Seed where
  /-- The canonical path. -/
  path : String
  /-- The text. -/
  text : String
deriving Repr, DecidableEq, Inhabited

namespace Seed

/-- The pieces of a relative path after the points in front. -/
def dropPoints : List (List Char) → List (List Char)
  | ['.'] :: pieces => dropPoints pieces
  | pieces => pieces

/-- The path that a walk starts from, as the walk spells it.  The empty path stands for the
root of the disk, and there is none if an empty name follows the points in front. -/
def walkRoot? (path : String) : Option String :=
  let pieces := split '/' path.toList
  if path.isEmpty then some "/"
  else if pieces.head? ≠ some ['.'] then some (Path.spelled path)
  else
    match dropPoints pieces with
    | [] => some ""
    | [] :: _ => none
    | rest => some (Path.spelled (String.ofList (join '/' rest)))

/-- The paths of the files below a directory, in order, each spelled from the directory. -/
def walk (d : Disk) (directory : String) : List String :=
  match d.locate (if directory.isEmpty then "." else directory) with
  | .error _ => []
  | .ok place =>
    if d.isDirectoryAt place then
      (d.filesBelow place).map fun (names, _) => Path.join directory ("/".intercalate names)
    else []

/-- The canonical path of a file, if it lies below the project root and is in scope. -/
def pathInScope? (filter : SourceFilter) (projectRoot file : String) : Option String := do
  let relative ← Path.below? projectRoot file
  let path := SourcePath.normalize (String.ofList (replaceChar '\\' '/' relative.toList))
  if filter.includes path then some path else none

/-- The files below a source directory of a project. -/
def filesOf (d : Disk) (projectRoot sourceRoot : String) : List String :=
  match walkRoot? (Path.join projectRoot sourceRoot) with
  | none => []
  | some root => walk d root

/-- The files in scope among some files, with their canonical paths. -/
def candidates (filter : SourceFilter) (projectRoot : String) (files : List String) :
    List (String × String) :=
  files.filterMap fun file => (pathInScope? filter projectRoot file).map (file, ·)

/-- The seeds below a source directory of a project. -/
def ofProject (d : Disk) (filter : SourceFilter) (projectRoot sourceRoot : String) : List Seed :=
  (candidates filter projectRoot (filesOf d projectRoot sourceRoot)).filterMap fun (file, path) =>
    (d.readText file).toOption.map (⟨path, ·⟩)

end Seed

/-- A record with the lines of a seed. -/
def FileRecord.addSeed (f : FileRecord) (s : Seed) : FileRecord :=
  let f := (codeLines s.text).foldl
    (fun f l => f.addStatement l.line (.onLine l.line l.start l.stop) 0) f
  { f with text := f.text <|> some s.text }

/-- A map with the lines of a seed. -/
def CoverageMap.addSeed (m : CoverageMap) (s : Seed) : CoverageMap :=
  m.update s.path (·.addSeed s)

end BundleCoverage
