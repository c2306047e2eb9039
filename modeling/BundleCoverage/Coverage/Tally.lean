import BundleCoverage.Decimal.Shortest
import BundleCoverage.Json.Basic

/-!
# Tallies

A tally says how many things there are to cover and how many of them are covered.  Its
percentage is rounded to two places, and nothing to cover counts as all covered.

A summary has a tally of each kind.  Lines and statements are counted the same way.
-/

namespace BundleCoverage

/-- How many things there are, and how many of them are covered. -/
structure Tally where
  /-- All things. -/
  total : Nat := 0
  /-- The covered ones. -/
  covered : Nat := 0
deriving Repr, DecidableEq, Inhabited

namespace Tally

/-- The tally of two collections together. -/
def add (a b : Tally) : Tally := ⟨a.total + b.total, a.covered + b.covered⟩

/-- The percentage of covered things, to two places. -/
def percent (t : Tally) : Float :=
  if t.total = 0 then 100.0
  else
    (t.covered.toUInt64.toFloat / t.total.toUInt64.toFloat * 10000.0).round / 100.0

/-- A percentage in messages: without an exponent, and without a fraction that is zero. -/
def percentText (t : Tally) : String :=
  let bits := t.percent.toBits
  if bits = 0 then "0" else (Decimal.shortest bits).positional

/-- A percentage in documents: a whole number has the fraction zero, and a number of more
than sixteen digits an exponent. -/
def percentLiteral (t : Tally) : String :=
  let bits := t.percent.toBits
  if bits = 0 then "0.0"
  else
    let s := Decimal.shortest bits
    let whole := Decimal.length s.digits + s.exponent
    if 16 < whole then s.exponential
    else if 0 ≤ s.exponent then s.positional ++ ".0"
    else s.positional

end Tally

/-- A tally of each kind. -/
structure Summary where
  /-- Original lines. -/
  lines : Tally := {}
  /-- Statements. -/
  statements : Tally := {}
  /-- Functions. -/
  functions : Tally := {}
  /-- Branches. -/
  branches : Tally := {}
deriving Repr, DecidableEq, Inhabited

/-- The summary of two collections together. -/
def Summary.add (a b : Summary) : Summary where
  lines := a.lines.add b.lines
  statements := a.statements.add b.statements
  functions := a.functions.add b.functions
  branches := a.branches.add b.branches

end BundleCoverage
