import BundleCoverage.Coverage.CoverageMap
import BundleCoverage.Json.Basic

/-!
# Report documents

The full report is an object with one member for each source.  It numbers the statements,
functions and branches of the source from zero, in order, and gives the location and the
hits of each under its number.

The summary has the tallies of each source under its path, and those of all sources
under `total`.  A source with that path takes the place of the tallies of all.

The members of each object stand in the order of their keys.

The text summary is a table of the tallies of all sources.
-/

namespace BundleCoverage

/-! ## The full report -/

/-- A position as a document. -/
def Position.toJson (p : Position) : Json :=
  .obj [("column", .nat p.column), ("line", .nat p.line)]

/-- A location as a document. -/
def Location.toJson (l : Location) : Json :=
  .obj [("end", l.stop.toJson), ("start", l.start.toJson)]

/-- Some items under their numbers. -/
def numbered {α : Type} (f : α → Json) (items : List α) : Json :=
  .ofMembers (items.mapIdx fun i item => (toString i, f item))

/-- A function as a document. -/
def FunctionRecord.toJson (g : FunctionRecord) : Json :=
  .obj [("decl", g.location.toJson), ("line", .nat g.location.start.line),
    ("loc", g.location.toJson), ("name", .str g.name)]

/-- A branch as a document. -/
def BranchRecord.toJson (b : BranchRecord) : Json :=
  .obj [("line", .nat b.location.start.line), ("loc", b.location.toJson),
    ("locations", .arr [b.location.toJson]), ("type", .str "block")]

/-- The record of a source as a document. -/
def FileRecord.toJson (f : FileRecord) : Json :=
  let statements := f.statements.values
  let functions := f.functions.values
  let branches := f.branches.values
  .obj [("b", numbered (fun b => .arr [.nat b.hits]) branches),
    ("branchMap", numbered (·.toJson) branches),
    ("f", numbered (fun g => .nat g.hits) functions),
    ("fnMap", numbered (·.toJson) functions),
    ("path", .str f.path),
    ("s", numbered (fun s => .nat s.hits) statements),
    ("statementMap", numbered (·.location.toJson) statements)]

/-- The full report. -/
def CoverageMap.toJson (m : CoverageMap) : Json :=
  .ofMembers (m.files.values.map fun f => (f.path, f.toJson))

/-! ## The summary -/

/-- A tally as a document. -/
def Tally.toJson (t : Tally) : Json :=
  .obj [("covered", .nat t.covered), ("pct", .real t.percentLiteral), ("skipped", .nat 0),
    ("total", .nat t.total)]

/-- A summary as a document. -/
def Summary.toJson (s : Summary) : Json :=
  .obj [("branches", s.branches.toJson), ("functions", s.functions.toJson),
    ("lines", s.lines.toJson), ("statements", s.statements.toJson)]

/-- The key of the tallies of all sources. -/
def totalKey : String := "total"

/-- The summary of all sources and of each. -/
def CoverageMap.summaryJson (m : CoverageMap) : Json :=
  .ofMembers
    ((totalKey, m.summary.toJson) :: m.files.values.map fun f => (f.path, f.summary.toJson))

/-! ## The text summary -/

/-- A line of the text summary. -/
def Tally.line (t : Tally) (label : String) : String :=
  label ++ "".pushn ' ' (13 - label.length) ++ s!": {t.percentText}% ( {t.covered}/{t.total} )\n"

/-- The width of the text summary. -/
def ruleWidth : Nat := 80

/-- The text summary. -/
def Summary.table (s : Summary) : String :=
  let title := " Coverage summary "
  let side := "".pushn '=' ((ruleWidth - title.length) / 2)
  "\n" ++ side ++ title ++ side ++ "\n" ++ s.statements.line "Statements"
    ++ s.branches.line "Branches" ++ s.functions.line "Functions" ++ s.lines.line "Lines"
    ++ "".pushn '=' ruleWidth ++ "\n"

end BundleCoverage
