import BundleCoverage.Disk.Basic
import BundleCoverage.Json.Parse
import BundleCoverage.Options.Basic
import BundleCoverage.Yaml.Parse
import BundleCoverage.Yaml.Shape

/-!
# Reading options

Options are a JSON or a YAML record.  A field that is missing has its default.  A file is
YAML if its name says so, whatever the case of its extension.
-/

namespace BundleCoverage.Options

open Json

/-- The names of the fields. -/
def fields : List Names :=
  [["cdpPort"], ["buildDir"], ["outputDir"], ["cacheDir"], ["sourceRoot"], ["projectRoot"],
    ["include"], ["exclude"], ["reporters"], ["all"], ["client"], ["server"]]

/-- The shapes of the fields. -/
def shape : Shape :=
  .record fields
    [.number, .text, .text, .nullable .text, .text, .text, .list .text, .list .text, .list .text,
      .truth, .record [["includePatterns"], ["excludePattern"]] [.list .text, .text],
      .record [["subdirectories"], ["excludePatterns"]] [.list .text, .list .text]]

/-- Reads options. -/
def ofJson? (value : Json) : Option Options := do
  let default : Options := {}
  let port (v : Json) : Option UInt16 := (toNatBelow? 65536 v).map UInt16.ofNat
  match ← record? fields value with
  | [cdp, build, output, cache, source, project, included, excluded, reporters, all, client,
      server] =>
    return {
      inspectorPort := ← orElse default.inspectorPort port cdp
      buildDirectory := ← orElse default.buildDirectory toText? build
      outputDirectory := ← orElse default.outputDirectory toText? output
      cacheDirectory? := ← orElse default.cacheDirectory? (toOption? toText?) cache
      sourceRoot := ← orElse default.sourceRoot toText? source
      projectRoot := ← orElse default.projectRoot toText? project
      includePatterns := ← orElse default.includePatterns (toList? toText?) included
      excludePatterns := ← orElse default.excludePatterns (toList? toText?) excluded
      reporters := ← orElse default.reporters (toList? toText?) reporters
      seedAll := ← orElse default.seedAll toBool? all
      client := ← orElse default.client ClientFilter.ofJson? client
      server := ← orElse default.server ServerFilter.ofJson? server }
  | _ => none

/-- Reads options from a JSON text. -/
def ofJsonText (text : String) : Except Error Options :=
  match (Json.parse? text).bind ofJson? with
  | some o => .ok o
  | none => .error (.config "invalid JSON options")

/-- Reads options from a YAML text. -/
def ofYamlText (text : String) : Except Error Options :=
  match (Yaml.parse? text).bind fun y => (Yaml.readAs? shape y).bind ofJson? with
  | some o => .ok o
  | none => .error (.config "invalid YAML options")

/-- Whether the name of a file says that it is YAML. -/
def isYamlFile (path : String) : Bool :=
  (Path.extension? path).any fun e => ["yaml", "yml"].contains (e.map Char.toLower)

/-- Reads options from a file. -/
def load (d : Disk) (path : String) : Except Error Options :=
  match d.readText path with
  | .error _ => .error (.config s!"cannot read {path}")
  | .ok text => if isYamlFile path then ofYamlText text else ofJsonText text

end BundleCoverage.Options
