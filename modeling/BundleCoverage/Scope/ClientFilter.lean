import BundleCoverage.Error
import BundleCoverage.Json.Read
import BundleCoverage.Pattern.RegexText
import BundleCoverage.Text.Quoted
import BundleCoverage.Text.Search

/-!
# The scope of client scripts

A script of the browser is in scope when its URL contains one of some texts and a regular
expression does not match it.  The default expression keeps out the chunks of the
framework and of other packages.  An empty expression keeps out nothing.
-/

namespace BundleCoverage

/-- Which scripts of the browser are in scope. -/
structure ClientFilter where
  /-- Texts of which the URL contains one. -/
  includePatterns : List String := ["/_next/static/chunks/"]
  /-- The expression that keeps scripts out. -/
  excludePattern : String :=
    "/chunks/(?:\\d+|framework|main|main-app|polyfills|webpack|vendors?)(?:[-.][\\w-]*)?\\.js(?:\\?|$)"
deriving Repr, DecidableEq, Inhabited

/-- A client filter whose expression has been read. -/
structure ClientScope where
  /-- Texts of which the URL contains one. -/
  includePatterns : List String
  /-- The expression that keeps scripts out, if any. -/
  excluded : Option Regex

namespace ClientFilter

/-- Reads the expression of a filter. -/
def compile (f : ClientFilter) : Except Error ClientScope :=
  if f.excludePattern.isEmpty then .ok ⟨f.includePatterns, none⟩
  else
    match Regex.parse? f.excludePattern with
    | some r => .ok ⟨f.includePatterns, some r⟩
    | none => .error (.config s!"invalid client exclude pattern {Text.quoted f.excludePattern}")

/-- A filter as a document. -/
def toJson (f : ClientFilter) : Json :=
  .obj [("includePatterns", .list .str f.includePatterns), ("excludePattern", .str f.excludePattern)]

/-- Reads a filter. -/
def ofJson? (value : Json) : Option ClientFilter := do
  let default : ClientFilter := {}
  match ← Json.record? [["includePatterns"], ["excludePattern"]] value with
  | [included, excluded] =>
    return ⟨← Json.orElse default.includePatterns (Json.toList? Json.toText?) included,
      ← Json.orElse default.excludePattern Json.toText? excluded⟩
  | _ => none

end ClientFilter

/-- Whether a URL is in scope. -/
def ClientScope.accepts (s : ClientScope) (url : String) : Bool :=
  (s.includePatterns.any fun p => Text.isInfix p.toList url.toList)
    && !s.excluded.any (·.isMatch url)

end BundleCoverage
