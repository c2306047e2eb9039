import BundleCoverage.Disk.Basic
import BundleCoverage.Options.Basic
import BundleCoverage.Scope.SourceFilter
import BundleCoverage.Text.Blank

/-!
# Valid options

Options are valid when the port is not zero, there are include patterns, all patterns can
be read, the output directory is not the project root, and every reporter has a name.  The
first of these that fails is the error.
-/

namespace BundleCoverage.Options

/-- The filter of the sources in scope. -/
def sourceFilter (o : Options) : Except Error SourceFilter :=
  SourceFilter.ofPatterns o.includePatterns o.excludePatterns

/-- Whether two paths lead to the same directory.  If one of them leads nowhere, their
components are compared. -/
def sameDirectory (d : Disk) (a b : String) : Bool :=
  match d.canonical? a, d.canonical? b with
  | some x, some y => x == y
  | _, _ =>
    let parts (path : String) := (Path.components path).filter (· ≠ .current)
    parts a == parts b

/-- Checks options. -/
def validate (d : Disk) (o : Options) : Except Error Unit := do
  if o.inspectorPort = 0 then throw (.config "cdpPort must be between 1 and 65535")
  if o.includePatterns.isEmpty then throw (.config "include must name at least one pattern")
  let _ ← o.sourceFilter
  let _ ← o.client.compile
  if sameDirectory d o.outputDirectory o.projectRoot then
    throw (.config s!"outputDir {o.outputDirectory} must not be the project root")
  if o.reporters.any fun r => r.toList.all Text.isBlank then
    throw (.config "reporter identifiers must not be empty")

end BundleCoverage.Options
