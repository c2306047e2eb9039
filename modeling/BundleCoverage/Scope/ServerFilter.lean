import BundleCoverage.Json.Read
import BundleCoverage.Text.Blank
import BundleCoverage.Text.Search
import BundleCoverage.Url.Locate

/-!
# The scope of server scripts

A script of the server is in scope when it is a file in one of some directories of the
build and its path holds none of some texts.
-/

namespace BundleCoverage

open Text

/-- Which scripts of the server are in scope. -/
structure ServerFilter where
  /-- The directories of the build that hold scripts of the project. -/
  subdirectories : List String := ["server/app", "server/chunks", "server/pages", "server/src"]
  /-- Texts in a path that take a script out of scope. -/
  excludePatterns : List String := ["node_modules", "webpack-runtime", "manifest"]
deriving Repr, DecidableEq, Inhabited

namespace ServerFilter

/-- A text without the copies of a piece it starts with. -/
def trimPieces (piece text : List Char) : List Char :=
  match piece with
  | [] => text
  | c :: rest =>
    match _h : stripPrefix? (c :: rest) text with
    | none => text
    | some after => trimPieces (c :: rest) after
termination_by text.length
decreasing_by
  rw [stripPrefix?_eq_some_iff.1 _h]
  simp only [List.length_append, List.length_cons]
  omega

/-- What the path of a script in a directory of the build contains. -/
def needle (buildDirectory subdirectory : String) : List Char :=
  let build := replaceChar '\\' '/' buildDirectory.toList
  let build := trimEnd (· = '/') (trimPieces ['.', '/'] build)
  build ++ '/' :: trimEnd (· = '/') (trimStart (· = '/') subdirectory.toList) ++ ['/']

/-- Whether a script is in scope. -/
def accepts (f : ServerFilter) (url buildDirectory : String) : Bool :=
  match scriptFile? url with
  | none => false
  | some path =>
    let path := replaceChar '\\' '/' path.text.toList
    !(f.excludePatterns.any fun p => isInfix p.toList path)
      && f.subdirectories.any fun s => isInfix (needle buildDirectory s) path

/-- A filter as a document. -/
def toJson (f : ServerFilter) : Json :=
  .obj [("subdirectories", .list .str f.subdirectories),
    ("excludePatterns", .list .str f.excludePatterns)]

/-- Reads a filter. -/
def ofJson? (value : Json) : Option ServerFilter := do
  let default : ServerFilter := {}
  match ← Json.record? [["subdirectories"], ["excludePatterns"]] value with
  | [subdirectories, exclude] =>
    return ⟨← Json.orElse default.subdirectories (Json.toList? Json.toText?) subdirectories,
      ← Json.orElse default.excludePatterns (Json.toList? Json.toText?) exclude⟩
  | _ => none

end ServerFilter

end BundleCoverage
