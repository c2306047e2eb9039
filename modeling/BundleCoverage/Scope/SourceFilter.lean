import BundleCoverage.Error
import BundleCoverage.Pattern.Glob

/-!
# The scope of sources

A source is in scope when its canonical path matches an include pattern and no exclude
pattern.
-/

namespace BundleCoverage

/-- Include and exclude patterns over canonical paths. -/
structure SourceFilter where
  /-- One of these has to match. -/
  included : List Glob
  /-- None of these may match. -/
  excluded : List Glob
deriving Repr, DecidableEq

/-- Reads a list of patterns. -/
def readGlobs (patterns : List String) : Except Error (List Glob) :=
  patterns.mapM fun pattern =>
    (Glob.parse pattern).mapError fun fault =>
      .config s!"invalid glob pattern {Text.quoted pattern}: {fault.message}"

namespace SourceFilter

/-- The filter of some patterns. -/
def ofPatterns (included excluded : List String) : Except Error SourceFilter := do
  return ⟨← readGlobs included, ← readGlobs excluded⟩

/-- Whether a canonical path is in scope. -/
def includes (f : SourceFilter) (path : String) : Bool :=
  f.included.any (·.isMatch path) && !f.excluded.any (·.isMatch path)

end SourceFilter

end BundleCoverage
