import BundleCoverage.Disk.Path
import BundleCoverage.Json.Print
import BundleCoverage.Scope.ClientFilter
import BundleCoverage.Scope.ServerFilter

/-!
# Options

The options say where bundles, sources, reports and intermediate data are, which scripts
and sources are in scope and what is reported.  Every option has a default.
-/

namespace BundleCoverage

/-- The options of collecting and merging. -/
structure Options where
  /-- The inspector port of the server. -/
  inspectorPort : UInt16 := 9230
  /-- The directory of the build. -/
  buildDirectory : String := ".next"
  /-- The directory that reports are written to. -/
  outputDirectory : String := "coverage/e2e"
  /-- The directory of the cache, if it is not the one in the output directory. -/
  cacheDirectory? : Option String := none
  /-- The directory of the sources in the project. -/
  sourceRoot : String := "src"
  /-- The directory of the project. -/
  projectRoot : String := "."
  /-- Patterns of which a source has to match one. -/
  includePatterns : List String := ["src/**/*.ts", "src/**/*.tsx", "src/**/*.js", "src/**/*.jsx"]
  /-- Patterns of which a source may match none. -/
  excludePatterns : List String :=
    ["**/*.test.*", "**/*.spec.*", "**/__tests__/**", "**/*.d.ts", "**/*.stories.*", "**/*.css"]
  /-- The names of the reporters, in order. -/
  reporters : List String := ["json", "json-summary", "text-summary"]
  /-- Whether sources without coverage are reported as well. -/
  seedAll : Bool := false
  /-- The scripts of the browser in scope. -/
  client : ClientFilter := {}
  /-- The scripts of the server in scope. -/
  server : ServerFilter := {}
deriving Repr, DecidableEq, Inhabited

namespace Options

/-- The directory of the cache. -/
def cacheDirectory (o : Options) : String :=
  o.cacheDirectory?.getD (Path.join o.outputDirectory ".cache")

/-- The options as a document.  The cache directory is left out when it is not set. -/
def toJson (o : Options) : Json :=
  .obj ([("cdpPort", .nat o.inspectorPort.toNat), ("buildDir", .str o.buildDirectory),
      ("outputDir", .str o.outputDirectory)]
    ++ (o.cacheDirectory?.map fun d => ("cacheDir", Json.str d)).toList
    ++ [("sourceRoot", .str o.sourceRoot), ("projectRoot", .str o.projectRoot),
      ("include", .list .str o.includePatterns), ("exclude", .list .str o.excludePatterns),
      ("reporters", .list .str o.reporters), ("all", .bool o.seedAll),
      ("client", o.client.toJson), ("server", o.server.toJson)])

/-- The text of the options. -/
def render (o : Options) : String := o.toJson.pretty

end Options

end BundleCoverage
