import BundleCoverage.Text.Split

/-!
# Paths

A path is a text with slashes.  Joining an absolute path to another gives the absolute
path.  Taken apart, a path is its components: doubled slashes, a slash at the end and
points that stand for the directory itself do not count, except for a point in front of a
relative path.
-/

namespace BundleCoverage.Path

open Text

/-- A component of a path. -/
inductive Component
  /-- The root of an absolute path. -/
  | root
  /-- The point in front of a relative path. -/
  | current
  /-- The directory above. -/
  | parent
  /-- A file or directory. -/
  | name (text : String)
deriving Repr, DecidableEq, Inhabited

/-- Whether a path starts at the root. -/
def isAbsolute (path : String) : Bool := path.toList.head? == some '/'

/-- A path continued by another. -/
def join (path next : String) : String :=
  if isAbsolute next || path.isEmpty then next
  else if path.toList.getLast? = some '/' then path ++ next
  else path ++ "/" ++ next

/-- The component of a piece of a path that is neither empty nor a point. -/
def Component.ofPiece (piece : List Char) : Component :=
  if piece = ['.', '.'] then .parent else .name (String.ofList piece)

/-- The components of a path. -/
def components (path : String) : List Component :=
  let pieces := split '/' path.toList
  let start := if isAbsolute path then [Component.root]
    else if pieces.head? = some ['.'] then [.current] else []
  start ++ (pieces.filter fun p => p ≠ [] && p ≠ ['.']).map .ofPiece

/-- The text of a component that is not the root. -/
def Component.text : Component → String
  | .root => ""
  | .current => "."
  | .parent => ".."
  | .name text => text

/-- Whether a piece of a path stands for no step: an empty one, or a point. -/
def isSilent (piece : List Char) : Bool := piece = [] || piece = ['.']

/-- The pieces of a path that are left after a number of steps, from the next step on. -/
def dropSteps : Nat → List (List Char) → List (List Char)
  | _, [] => []
  | n, piece :: pieces =>
    if isSilent piece then dropSteps n pieces
    else
      match n with
      | 0 => piece :: pieces
      | n + 1 => dropSteps n pieces

/-- What remains of the text of a path that ends in a name, below another path.  Below the
empty path that is all of it. -/
def below? (base path : String) : Option String :=
  if (components base).isPrefixOf (components path) then
    let steps := (split '/' base.toList).countP (!isSilent ·)
    let rest := Text.join '/' (dropSteps steps (split '/' path.toList))
    some (if base.isEmpty then path else String.ofList rest)
  else none

/-- The text of a path with slashes not doubled behind the first step, and with one at the end if
there is no step. -/
def spelled (path : String) : String :=
  let pieces := split '/' path.toList
  if pieces.all isSilent then path ++ "/"
  else
    String.ofList (Text.join '/'
      (pieces.takeWhile isSilent ++ (pieces.dropWhile isSilent).filter (· ≠ [])))

/-- The last component of a path, if it is a name. -/
def fileName? (path : String) : Option String :=
  match (components path).getLast? with
  | some (.name text) => some text
  | _ => none

/-- A file name before its last point and what follows it.  A name that starts with its only
point has no extension. -/
def splitExtension (name : String) : String × Option String :=
  let chars := name.toList
  let ending := (chars.reverse.takeWhile (· ≠ '.')).reverse
  if ending.length + 1 < chars.length then
    (String.ofList (chars.take (chars.length - ending.length - 1)), some (String.ofList ending))
  else (name, none)

/-- The extension of a path. -/
def extension? (path : String) : Option String := (fileName? path).bind fun n => (splitExtension n).2

end BundleCoverage.Path
