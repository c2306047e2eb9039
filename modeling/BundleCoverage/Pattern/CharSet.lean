import BundleCoverage.Text.Blank
import BundleCoverage.Text.Fold
import BundleCoverage.Text.Word

/-!
# Sets of characters

The sets that a regular expression can name, built from ranges, a few classes and set
operations.
-/

namespace BundleCoverage

/-- A set of characters. -/
inductive CharSet where
  /-- The characters between two code points.  With `folded`, also the same letters in
  another case. -/
  | range (first last : Nat) (folded : Bool)
  /-- Decimal digits. -/
  | digit
  /-- Word characters. -/
  | word
  /-- Blank characters. -/
  | space
  /-- All others. -/
  | complement (a : CharSet)
  /-- Those of either set. -/
  | union (a b : CharSet)
  /-- Those of both sets. -/
  | inter (a b : CharSet)
deriving Repr, DecidableEq

namespace CharSet

/-- No character. -/
def none : CharSet := .range 1 0 false

/-- One character. -/
def one (folded : Bool) (c : Char) : CharSet := .range c.toNat c.toNat folded

/-- The members of any of some sets. -/
def unions (sets : List CharSet) : CharSet := sets.foldl .union none

/-- The members of the first set that are not in the second. -/
def difference (a b : CharSet) : CharSet := .inter a (.complement b)

/-- The members of one of two sets, but not of both. -/
def symmetricDifference (a b : CharSet) : CharSet := .union (difference a b) (difference b a)

/-- Whether a character is in a set. -/
def contains (c : Char) : CharSet → Bool
  | .range first last folded =>
    if folded then (Text.sameLetter c).any fun n => first ≤ n && n ≤ last
    else first ≤ c.toNat && c.toNat ≤ last
  | .digit => Text.isDigit c
  | .word => Text.isWord c
  | .space => Text.isBlank c
  | .complement a => !contains c a
  | .union a b => contains c a || contains c b
  | .inter a b => contains c a && contains c b

/-- The characters of some ASCII ranges. -/
def ascii (folded : Bool) (ranges : List (Char × Char)) : CharSet :=
  unions (ranges.map fun (a, b) => .range a.toNat b.toNat folded)

/-- The ranges of the ASCII classes that can stand in a set by name. -/
def namedRanges? (name : String) : Option (List (Char × Char)) :=
  match name with
  | "alnum" => some [('0', '9'), ('A', 'Z'), ('a', 'z')]
  | "alpha" => some [('A', 'Z'), ('a', 'z')]
  | "ascii" => some [('\x00', '\x7F')]
  | "blank" => some [('\t', '\t'), (' ', ' ')]
  | "cntrl" => some [('\x00', '\x1F'), ('\x7F', '\x7F')]
  | "digit" => some [('0', '9')]
  | "graph" => some [('!', '~')]
  | "lower" => some [('a', 'z')]
  | "print" => some [(' ', '~')]
  | "punct" => some [('!', '/'), (':', '@'), ('[', '\x60'), ('\x7b', '~')]
  | "space" => some [('\t', '\r'), (' ', ' ')]
  | "upper" => some [('A', 'Z')]
  | "word" => some [('0', '9'), ('A', 'Z'), ('_', '_'), ('a', 'z')]
  | "xdigit" => some [('0', '9'), ('A', 'F'), ('a', 'f')]
  | _ => Option.none

/-- An ASCII class by its name. -/
def named? (folded : Bool) (name : String) : Option CharSet :=
  (namedRanges? name).map (ascii folded)

end CharSet

end BundleCoverage
