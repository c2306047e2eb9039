import BundleCoverage.Error
import BundleCoverage.Json.Print
import BundleCoverage.Log.Host
import BundleCoverage.Report.Documents
import BundleCoverage.Text.Quoted

/-!
# Reporters

A reporter makes a report of a coverage map, as a file in the output directory or as text
that is printed.  A registry keeps reporters by name.  The reporters of a run are named in
the order in which they work; a name that the registry does not know is passed over, and
the first reporter that fails ends the run.
-/

namespace BundleCoverage

open Std

/-- Makes a report in a directory.  Gives the path of the file, if it writes one. -/
abbrev Reporter :=
  CoverageMap → (directory : String) → Host → Host × Except Error (Option String)

namespace Reporter

/-- The name of the file of the full report. -/
def fullFile : String := "coverage-final.json"

/-- The name of the file of the summary. -/
def summaryFile : String := "coverage-summary.json"

/-- Writes a document to a file in a directory, which it makes if there is none. -/
def writeDocument (directory fileName : String) (document : Json) (h : Host) :
    Host × Except Error (Option String) :=
  let path := Path.join directory fileName
  match h.disk.makeDirectories directory with
  | .error _ => (h, .error (.report s!"cannot create {directory}"))
  | .ok made =>
    match made.write path (Text.Utf8.encode document.compact) with
    | .error _ => ({ h with disk := made }, .error (.report s!"cannot write {path}"))
    | .ok written => ({ h with disk := written }, .ok (some path))

/-- Writes the full report. -/
def full : Reporter := fun map directory => writeDocument directory fullFile map.toJson

/-- Writes the summary. -/
def summary : Reporter := fun map directory => writeDocument directory summaryFile map.summaryJson

/-- Prints the text summary. -/
def textSummary : Reporter := fun map _ h => (h.print map.summary.table, .ok none)

end Reporter

/-- Reporters by name. -/
structure ReporterRegistry where
  /-- The reporters. -/
  reporters : ExtTreeMap String Reporter := ∅

namespace ReporterRegistry

/-- A registry without reporters. -/
def empty : ReporterRegistry := {}

/-- Adds a reporter, in place of one of the same name. -/
def register (r : ReporterRegistry) (name : String) (reporter : Reporter) : ReporterRegistry :=
  ⟨r.reporters.insert name reporter⟩

/-- The reporters of the library. -/
def builtin : ReporterRegistry :=
  ((empty.register "json" .full).register "json-summary" .summary).register "text-summary"
    .textSummary

/-- The reporter of a name. -/
def get? (r : ReporterRegistry) (name : String) : Option Reporter := r.reporters[name]?

/-- The names of the reporters, in order. -/
def names (r : ReporterRegistry) : List String := r.reporters.keys

/-- The text of a registry. -/
def render (r : ReporterRegistry) : String :=
  let names := ", ".intercalate (r.names.map Text.quoted)
  s!"ReporterRegistry \x7b reporters: [{names}] \x7d"

/-- Makes the reports of some names in order.  Gives the paths of the files. -/
def emitAll (r : ReporterRegistry) (map : CoverageMap) (directory : String) :
    List String → Host → Host × Except Error (List String)
  | [], h => (h, .ok [])
  | name :: names, h =>
    match r.get? name with
    | none => r.emitAll map directory names (h.log [.reporterSkipped])
    | some reporter =>
      match reporter map directory h with
      | (h, .error e) => (h, .error e)
      | (h, .ok none) => r.emitAll map directory names h
      | (h, .ok (some path)) =>
        let (h, rest) := r.emitAll map directory names (h.log [.reportWritten])
        (h, rest.map (path :: ·))

end ReporterRegistry

end BundleCoverage
