import BundleCoverage.Json.Read
import BundleCoverage.Script.Range

/-!
# Coverage entries

An entry is the coverage of one bundled script: its URL, its text if it was captured, and
its functions with their ranges.  The first range of a function is the function itself.
The others are blocks of it if the function has block coverage.

An inspector and a browser each report scripts in a shape of their own.  An inspector
never gives a text, and the empty text of a browser is no text.
-/

namespace BundleCoverage

/-- The coverage of one function. -/
structure FunctionCoverage where
  /-- The name, empty for anonymous functions and for the whole script. -/
  functionName : String := ""
  /-- The ranges. -/
  ranges : List CoverageRange := []
  /-- Whether the ranges after the first are blocks. -/
  isBlockCoverage : Bool := false
deriving Repr, DecidableEq, Inhabited

namespace FunctionCoverage

/-- Whether the function was called. -/
def wasExecuted (f : FunctionCoverage) : Bool := f.ranges.head?.any (0 < ·.count)

/-- The sum of the counts of all ranges. -/
def totalCount (f : FunctionCoverage) : Nat := f.ranges.foldr (fun r n => r.count.toNat + n) 0

/-- The first offset and the offset after the last. -/
def extent? (f : FunctionCoverage) : Option (Nat × Nat) := do
  let start ← (f.ranges.map (·.startOffset.toNat)).min?
  let stop ← (f.ranges.map (·.endOffset.toNat)).max?
  return (start, stop)

/-- The blocks of the function. -/
def blocks (f : FunctionCoverage) : List CoverageRange :=
  if f.isBlockCoverage then f.ranges.drop 1 else []

end FunctionCoverage

/-- The coverage of one bundled script. -/
structure Entry where
  /-- Where the script came from: a file URL, a web URL or a path in the bundle. -/
  url : String
  /-- The text of the script, if it was captured. -/
  source : Option String := none
  /-- The functions of the script. -/
  functions : List FunctionCoverage := []
deriving Repr, DecidableEq, Inhabited

namespace Entry

/-- The ranges of all functions. -/
def ranges (e : Entry) : List CoverageRange := e.functions.flatMap (·.ranges)

/-- The number of ranges. -/
def rangeCount (e : Entry) : Nat := e.ranges.length

/-- Whether there is any range.  An entry without one contributes nothing. -/
def hasRanges (e : Entry) : Bool := e.functions.any fun f => !f.ranges.isEmpty

/-- The number of functions that were called. -/
def executedCount (e : Entry) : Nat := e.functions.countP (·.wasExecuted)

end Entry

/-- A script as a browser reports it. -/
structure BrowserScript where
  /-- What the browser calls the script. -/
  scriptId : String := ""
  /-- Where the script came from. -/
  url : String
  /-- The text of the script, if the browser captured it. -/
  source : Option String := none
  /-- The functions of the script. -/
  functions : List FunctionCoverage := []
deriving Repr, DecidableEq, Inhabited

/-- The entry of a script of a browser. -/
def BrowserScript.entry (s : BrowserScript) : Entry where
  url := s.url
  source := s.source.filter (· ≠ "")
  functions := s.functions

/-! ## Writing -/

/-- A range as a document. -/
def CoverageRange.toJson (r : CoverageRange) : Json :=
  .obj [("startOffset", .nat r.startOffset.toNat), ("endOffset", .nat r.endOffset.toNat),
    ("count", .nat r.count.toNat)]

/-- A function as a document. -/
def FunctionCoverage.toJson (f : FunctionCoverage) : Json :=
  .obj [("functionName", .str f.functionName), ("ranges", .list CoverageRange.toJson f.ranges),
    ("isBlockCoverage", .bool f.isBlockCoverage)]

/-- An entry as a document.  The text is left out when there is none. -/
def Entry.toJson (e : Entry) : Json :=
  .obj ([("url", .str e.url)] ++ (e.source.map fun s => ("source", Json.str s)).toList
    ++ [("functions", .list FunctionCoverage.toJson e.functions)])

/-- Some entries as a document. -/
def Entry.document (entries : List Entry) : Json :=
  .obj [("result", .list Entry.toJson entries)]

/-! ## Reading -/

open Json

/-- Reads a range.  The count may be called an execution count. -/
def CoverageRange.ofJson? (value : Json) : Option CoverageRange := do
  match ← record? [["startOffset"], ["endOffset"], ["count", "executionCount"]] value with
  | [start, stop, count] =>
    return ⟨← required toWord? start, ← required toWord? stop, ← required toWord? count⟩
  | _ => none

/-- Reads a function. -/
def FunctionCoverage.ofJson? (value : Json) : Option FunctionCoverage := do
  match ← record? [["functionName"], ["ranges"], ["isBlockCoverage"]] value with
  | [name, ranges, block] =>
    return ⟨← orElse "" toText? name, ← orElse [] (toList? CoverageRange.ofJson?) ranges,
      ← orElse false toBool? block⟩
  | _ => none

/-- Reads the functions of a script. -/
def functions? : Json.Reader (List FunctionCoverage) := toList? FunctionCoverage.ofJson?

/-- Reads an entry. -/
def Entry.ofJson? (value : Json) : Option Entry := do
  match ← record? [["url"], ["source"], ["functions"]] value with
  | [url, source, functions] =>
    return ⟨← required toText? url, ← orElse none (toOption? toText?) source,
      ← orElse [] functions? functions⟩
  | _ => none

/-- Reads a script as an inspector reports it. -/
def Entry.ofInspector? (value : Json) : Option Entry := do
  match ← record? [["scriptId"], ["url"], ["functions"]] value with
  | [script, url, functions] =>
    let _ ← required toText? script
    return { url := ← required toText? url, functions := ← orElse [] functions? functions }
  | _ => none

/-- Reads a script as a browser reports it. -/
def BrowserScript.ofJson? (value : Json) : Option BrowserScript := do
  match ← record? [["scriptId"], ["url"], ["source"], ["functions"]] value with
  | [script, url, source, functions] =>
    return ⟨← orElse "" toText? script, ← required toText? url,
      ← orElse none (toOption? toText?) source, ← orElse [] functions? functions⟩
  | _ => none

/-- Reads a document of entries. -/
def Entry.ofDocument? (value : Json) : Option (List Entry) := do
  match ← record? [["result"]] value with
  | [entries] => orElse [] (toList? Entry.ofJson?) entries
  | _ => none

end BundleCoverage
