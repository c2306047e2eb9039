import BundleCoverage.Text.Blank
import BundleCoverage.Url.Host

/-!
# URLs

Scripts are named by URLs, which are read as browsers read them.  Control characters and
spaces around a URL, and tabs and line breaks inside it, do not count.  In a special
scheme a backslash is a slash.  Dot segments are resolved while the path is read, also
when their dots are escaped, and two dots never remove a drive letter.  A drive letter at
the start of the path of a file is followed by a colon, also where a bar was written.  An
escaped slash stays inside its segment.

`Url.parse` reads a URL on its own and `Url.join` one that may be relative to another.
Query and fragment are not kept.  Hosts are judged without the mapping of international names.
-/

namespace BundleCoverage

open Text

/-- A URL without query and fragment. -/
structure Url where
  /-- The scheme in lower case. -/
  scheme : String
  /-- The host, if there is one. -/
  host : Option (List Char) := none
  /-- The segments of the path, with their escapes; `none` for a path that is not made of
  segments. -/
  segments : Option (List (List Char)) := none
deriving Repr, DecidableEq, Inhabited

namespace Url

/-- Why a text is no URL. -/
inductive Fault
  /-- It has no scheme, and there is nothing it could be relative to. -/
  | relative
  /-- The host is empty or no host. -/
  | host
  /-- The port is no number below 65536. -/
  | port
deriving Repr, DecidableEq

/-- A text without the characters that do not count. -/
def clean (text : List Char) : List Char :=
  (trimEnd (·.toNat ≤ 0x20) (trimStart (·.toNat ≤ 0x20) text)).filter
    fun c => c ≠ '\t' && c ≠ '\n' && c ≠ '\r'

/-- The scheme of a text in lower case and what follows its colon. -/
def splitScheme? (text : List Char) : Option (String × List Char) :=
  match splitOnce ':' text with
  | (scheme, some rest) =>
    if scheme.head?.any Char.isAlpha
        && scheme.all fun c => c.isAlphanum || c = '+' || c = '-' || c = '.' then
      some (String.ofList (scheme.map Char.toLower), rest)
    else none
  | _ => none

/-- The special schemes other than that of files. -/
def isSpecial (scheme : String) : Bool := ["http", "https", "ws", "wss", "ftp"].contains scheme

/-- The slashes of a special scheme. -/
def isSlash (c : Char) : Bool := c = '/' || c = '\\'

/-! ## Paths -/

/-- Whether two characters are a drive letter and its colon, or a bar in its place. -/
def isDrive (segment : List Char) : Bool :=
  match segment with
  | [c, d] => c.isAlpha && (d = ':' || d = '|')
  | _ => false

/-- Whether a segment is a drive letter and a colon. -/
def isDriveSegment (segment : List Char) : Bool :=
  match segment with
  | [c, ':'] => c.isAlpha
  | _ => false

/-- A segment with the escapes of dots decoded. -/
def plainDots : List Char → List Char
  | '%' :: '2' :: 'e' :: rest => '.' :: plainDots rest
  | '%' :: '2' :: 'E' :: rest => '.' :: plainDots rest
  | c :: rest => c :: plainDots rest
  | [] => []

/-- Whether a segment stands for the directory itself. -/
def isDot (segment : List Char) : Bool := plainDots segment == ['.']

/-- Whether a segment stands for the directory above. -/
def isDoubleDot (segment : List Char) : Bool := plainDots segment == ['.', '.']

/-- The segments of the directory above. -/
def parent (segments : List (List Char)) : List (List Char) :=
  if segments.getLast?.any isDrive then segments else segments.dropLast

/-- The segments of the directory of a file. -/
def directory (segments : List (List Char)) : List (List Char) :=
  if segments.getLast?.any isDriveSegment then segments else segments.dropLast

/-- One more segment of a path.  The drive letter of a file is followed by a colon. -/
def push (file : Bool) (path : List (List Char)) (segment : List Char) : List (List Char) :=
  if file && path.isEmpty && isDrive segment then [segment.take 1 ++ [':']]
  else path ++ [escape needsPathEscape segment]

/-- Segments appended to a path, with dot segments resolved.  A dot segment at the end
leaves an empty segment. -/
def append (file : Bool) (path : List (List Char)) : List (List Char) → List (List Char)
  | [] => path
  | [segment] =>
    if isDoubleDot segment then parent path ++ [[]]
    else if isDot segment then path ++ [[]]
    else push file path segment
  | segment :: rest =>
    if isDoubleDot segment then append file (parent path) rest
    else if isDot segment then append file path rest
    else append file (push file path segment) rest

/-- The text of a path: what stands before query and fragment. -/
def pathText (input : List Char) : List Char := input.takeWhile fun c => c ≠ '?' && c ≠ '#'

/-- The segments of a path in a special scheme. -/
def specialSegments (input : List Char) : List (List Char) :=
  split '/' ((pathText input).map fun c => if c = '\\' then '/' else c)

/-- The path of a URL, from the slash after the host on. -/
def rootedPath (file : Bool) (input : List Char) : List (List Char) :=
  append file [] (specialSegments (if input.head?.any isSlash then input.drop 1 else input))

/-- The path of a file: slashes in front of it are not part of it. -/
def filePath (path : List (List Char)) : List (List Char) :=
  match path.dropWhile List.isEmpty with
  | [] => [[]]
  | path => path

/-! ## Hosts and ports -/

/-- The text of a host, up to the colon of a port.  A colon in brackets is part of it. -/
def hostText (bracketed : Bool) : List Char → List Char
  | [] => []
  | c :: rest =>
    if c = ':' && !bracketed then []
    else c :: hostText (if c = '[' then true else if c = ']' then false else bracketed) rest

/-- Whether a text after a host is a port, or nothing. -/
def isPort : List Char → Bool
  | ':' :: digits => (digitsIn? 10 digits).any (· < 65536)
  | rest => rest.isEmpty

/-- The host of an authority, what stands between the slashes and the path. -/
def hostOf (special : Bool) (authority : List Char) : Except Fault (Option (List Char)) :=
  let (hostAndPort, named) := match afterLast? ['@'] authority with
    | some rest => (rest, true)
    | none => (authority, false)
  let host := hostText false hostAndPort
  if special then
    if !isHost host then .error .host
    else if isPort (hostAndPort.drop host.length) then .ok (some (host.map Char.toLower))
    else .error .port
  else if !isOpaqueHost host || (host.isEmpty && (named || !hostAndPort.isEmpty)) then .error .host
  else if isPort (hostAndPort.drop host.length) then
    .ok (if host.isEmpty then none else some host)
  else .error .port

/-- A URL from its authority on. -/
def ofAuthority (scheme : String) (input : List Char) : Except Fault Url := do
  let special := isSpecial scheme
  let inAuthority (c : Char) : Bool := !(c = '/' || c = '?' || c = '#' || (special && c = '\\'))
  let host ← hostOf special (input.takeWhile inAuthority)
  let rest := input.dropWhile inAuthority
  return { scheme, host, segments := some (rootedPath false rest) }

/-! ## Files -/

/-- The host of a file.  The local host is none. -/
def fileHost (host : List Char) : Except Fault (Option (List Char)) :=
  if host.isEmpty then .ok none
  else if !isHost host then .error .host
  else
    let name := host.map Char.toLower
    .ok (if name = "localhost".toList then none else some name)

/-- A file URL from its two slashes on.  A drive letter is no host, and a path that starts
with one has none.  Without a host, the slash in front of the path is a segment. -/
def ofFileAuthority (input : List Char) : Except Fault Url := do
  let inHost (c : Char) : Bool := !(isSlash c || c = '?' || c = '#')
  let hostText := input.takeWhile inHost
  let (host, rest) ←
    if isDrive hostText then pure (none, input)
    else do pure (← fileHost hostText, input.dropWhile inHost)
  let path := if host.isSome then rootedPath true rest else append true [] (specialSegments rest)
  return {
    scheme := "file"
    host := if path.head?.any isDriveSegment then none else host
    segments := some (filePath path) }

/-- Whether a text starts with a drive letter that is a whole segment. -/
def startsWithDrive (input : List Char) : Bool :=
  isDrive (input.take 2) && (input.drop 2).head?.all fun c => isSlash c || c = '?' || c = '#'

/-- A file URL from the colon of its scheme on, or a text relative to a file. -/
def ofFile (base : Option Url) (input : List Char) : Except Fault Url :=
  let path := (base.bind (·.segments)).getD []
  let file (segments : List (List Char)) (host : Option (List Char)) : Except Fault Url :=
    .ok { scheme := "file", host, segments := some (filePath segments) }
  match input with
  | [] => file path (base.bind (·.host))
  | c :: rest =>
    if isSlash c then
      if rest.head?.any isSlash then ofFileAuthority (rest.drop 1)
      else
        let drive := path.take 1
        let keep := drive.any isDriveSegment && !startsWithDrive rest
        let host := if drive.any isDriveSegment || startsWithDrive rest then none
          else base.bind (·.host)
        file (append true (if keep then drive else []) (specialSegments rest)) host
    else if c = '?' || c = '#' then file path (base.bind (·.host))
    else if startsWithDrive input then file (append true [] (specialSegments input)) none
    else file (append true (directory path) (specialSegments input)) (base.bind (·.host))

/-! ## Reading -/

/-- A text relative to a URL of a special scheme. -/
def relativeTo (base : Url) (input : List Char) : Except Fault Url :=
  match input with
  | [] => .ok base
  | c :: rest =>
    if isSlash c then
      if rest.head?.any isSlash then ofAuthority base.scheme (input.dropWhile isSlash)
      else .ok { base with segments := some (rootedPath false input) }
    else if c = '?' || c = '#' then .ok base
    else .ok { base with
      segments := some (append false (directory (base.segments.getD [])) (specialSegments input)) }

/-- A URL from the colon of its scheme on. -/
def ofScheme (base : Option Url) (scheme : String) (input : List Char) : Except Fault Url :=
  if scheme = "file" then ofFile (base.filter (·.scheme = "file")) input
  else if isSpecial scheme then
    match base with
    | some b =>
      if b.scheme = scheme && (input.takeWhile isSlash).length < 2 then relativeTo b input
      else ofAuthority scheme (input.dropWhile isSlash)
    | none => ofAuthority scheme (input.dropWhile isSlash)
  else
    match input with
    | '/' :: '/' :: rest => ofAuthority scheme rest
    | '/' :: rest => .ok { scheme, segments := some (append false [] (split '/' (pathText rest))) }
    | _ => .ok { scheme }

/-- Reads a text that may be relative to a URL. -/
def resolve (base : Option Url) (text : List Char) : Except Fault Url :=
  let input := clean text
  match splitScheme? input, base with
  | some (scheme, rest), base => ofScheme base scheme rest
  | none, none => .error .relative
  | none, some base =>
    if base.scheme = "file" then ofFile (some base) input else relativeTo base input

/-- Reads a URL. -/
def parse (text : String) : Except Fault Url := resolve none text.toList

/-- Reads a text relative to a URL. -/
def join (base : Url) (text : String) : Except Fault Url := resolve (some base) text.toList

end Url

end BundleCoverage
