import BundleCoverage.Coverage.Location
import BundleCoverage.Coverage.Tally
import BundleCoverage.Saturating

/-!
# The coverage of a source

A file record counts how often the parts of one source were executed.  A line is a
statement, a function is found by its first position, and a branch is a block that is found by
its location.  Adding to a part that is there adds to its count; a statement grows to hold the
columns of all that was added to it, and a function keeps its first name and location.

A function without a name is named after the number of functions before it.
-/

namespace BundleCoverage

open Std

/-- What is known about a line. -/
structure StatementRecord where
  /-- The columns of the line. -/
  location : Location
  /-- How often it was executed. -/
  hits : Nat
deriving Repr, DecidableEq, Inhabited

/-- What is known about the function at some position. -/
structure FunctionRecord where
  /-- The name. -/
  name : String
  /-- From the first position to the last. -/
  location : Location
  /-- How often it was called. -/
  hits : Nat
deriving Repr, DecidableEq, Inhabited

/-- What is known about a block. -/
structure BranchRecord where
  /-- From the first position to the last. -/
  location : Location
  /-- How often it was executed. -/
  hits : Nat
deriving Repr, DecidableEq, Inhabited

/-- The coverage of a source. -/
structure FileRecord where
  /-- The canonical path of the source. -/
  path : String
  /-- The statements by line. -/
  statements : ExtTreeMap Nat StatementRecord := ∅
  /-- The functions by first position. -/
  functions : ExtTreeMap Position FunctionRecord := ∅
  /-- The branches by location. -/
  branches : ExtTreeMap Location BranchRecord := ∅
  /-- The text of the source, if it is known. -/
  text : Option String := none
deriving DecidableEq, Inhabited

/-- A location with the columns of another one as well. -/
def Location.widen (a b : Location) : Location where
  start := { a.start with column := min a.start.column b.start.column }
  stop := { a.stop with column := max a.stop.column b.stop.column }

/-- The name of a function that has none, after a number of others. -/
def anonymousName (before : Nat) : String := s!"(anonymous_{before})"

namespace FileRecord

/-- The record of a source of which nothing is known. -/
def empty (path : String) : FileRecord := { path }

@[simp] theorem path_empty (path : String) : (empty path).path = path := rfl

@[simp] theorem statements_empty (path : String) : (empty path).statements = ∅ := rfl

@[simp] theorem functions_empty (path : String) : (empty path).functions = ∅ := rfl

@[simp] theorem branches_empty (path : String) : (empty path).branches = ∅ := rfl

/-- Adds executions of a line. -/
def addStatement (f : FileRecord) (line : Nat) (location : Location) (hits : Nat) : FileRecord :=
  { f with
    statements := f.statements.alter line fun old =>
      let s := old.getD ⟨location, 0⟩
      some ⟨s.location.widen location, addHits s.hits hits⟩ }

/-- Adds calls of the function that starts where a location does. -/
def addFunction (f : FileRecord) (name : Option String) (location : Location) (hits : Nat) :
    FileRecord :=
  let name := (name.filter (· ≠ "")).getD (anonymousName f.functions.size)
  { f with
    functions := f.functions.alter location.start fun old =>
      let g := old.getD ⟨name, location, 0⟩
      some { g with hits := addHits g.hits hits } }

/-- Adds executions of a block. -/
def addBranch (f : FileRecord) (location : Location) (hits : Nat) : FileRecord :=
  { f with
    branches := f.branches.alter location fun old =>
      let b := old.getD ⟨location, 0⟩
      some { b with hits := addHits b.hits hits } }

/-- The hits of each line. -/
def lineHits (f : FileRecord) : List (Nat × Nat) :=
  f.statements.toList.map fun (line, s) => (line, s.hits)

/-- The lines that were never executed. -/
def uncoveredLines (f : FileRecord) : List Nat :=
  (f.lineHits.filter fun (_, hits) => hits = 0).map (·.1)

/-- Whether nothing is recorded. -/
def isEmpty (f : FileRecord) : Bool :=
  f.statements.isEmpty && f.functions.isEmpty && f.branches.isEmpty

/-- The tally of some hits. -/
def tally (hits : List Nat) : Tally := ⟨hits.length, hits.countP (0 < ·)⟩

/-- The summary of a source. -/
def summary (f : FileRecord) : Summary where
  lines := tally (f.statements.values.map (·.hits))
  statements := tally (f.statements.values.map (·.hits))
  functions := tally (f.functions.values.map (·.hits))
  branches := tally (f.branches.values.map (·.hits))

end FileRecord

end BundleCoverage
