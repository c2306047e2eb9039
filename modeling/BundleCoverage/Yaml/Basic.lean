/-!
# YAML values

A scalar has no type of its own: it is a text, and whether it was plain, that is written
without quotes, decides what else it can be read as.  A value that is left out is the
empty plain scalar.
-/

namespace BundleCoverage

/-- A YAML value. -/
inductive Yaml where
  /-- A text, and whether it was written without quotes. -/
  | scalar (plain : Bool) (text : String)
  /-- A sequence. -/
  | seq (items : List Yaml)
  /-- A mapping with its keys and values in order. -/
  | map (pairs : List (Yaml × Yaml))
deriving Repr, BEq, Inhabited

/-- A value that is left out. -/
def Yaml.empty : Yaml := .scalar true ""

end BundleCoverage
