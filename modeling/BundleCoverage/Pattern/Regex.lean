import BundleCoverage.Pattern.CharSet

/-!
# Regular expressions

What a regular expression means: from a place in a text it leads to a list of places, one
for each length it can match.  Places are counted from the start of the text.

`isMatch` asks whether it matches anywhere.  Since only this is asked, it makes no
difference which match is preferred.
-/

namespace BundleCoverage

/-- A condition on a place. -/
inductive Assertion where
  /-- The start of the text. -/
  | textStart
  /-- The end of the text. -/
  | textEnd
  /-- The start of a line.  With `crlf`, a carriage return ends a line as well. -/
  | lineStart (crlf : Bool)
  /-- The end of a line. -/
  | lineEnd (crlf : Bool)
  /-- A place between a word character of a set and another character. -/
  | wordBoundary (inWords : CharSet)
  /-- Any other place. -/
  | noWordBoundary (inWords : CharSet)
  /-- The start of a word. -/
  | wordStart (inWords : CharSet)
  /-- The end of a word. -/
  | wordEnd (inWords : CharSet)
  /-- A place with no word character before it. -/
  | wordStartHalf (inWords : CharSet)
  /-- A place with no word character after it. -/
  | wordEndHalf (inWords : CharSet)
deriving Repr, DecidableEq

/-- A regular expression. -/
inductive Regex where
  /-- The empty text. -/
  | empty
  /-- One character of a set. -/
  | char (set : CharSet)
  /-- The empty text at some places. -/
  | assert (a : Assertion)
  /-- One expression and then another. -/
  | seq (a b : Regex)
  /-- Either of two expressions. -/
  | alt (a b : Regex)
  /-- Any number of repetitions. -/
  | star (a : Regex)
deriving Repr, DecidableEq

namespace Assertion

/-- Whether a place satisfies the condition. -/
def holds (text : Array Char) (i : Nat) (a : Assertion) : Bool :=
  let before := if i = 0 then none else text[i - 1]?
  let after := text[i]?
  let isWord (w : CharSet) (c : Option Char) : Bool := c.any (w.contains ·)
  match a with
  | .textStart => i == 0
  | .textEnd => i == text.size
  | .lineStart false => before.all (· = '\n')
  | .lineEnd false => after.all (· = '\n')
  | .lineStart true => before.all (· = '\n') || (before == some '\r' && after != some '\n')
  | .lineEnd true => after.all (· = '\r') || (after == some '\n' && before != some '\r')
  | .wordBoundary w => isWord w before != isWord w after
  | .noWordBoundary w => isWord w before == isWord w after
  | .wordStart w => !isWord w before && isWord w after
  | .wordEnd w => isWord w before && !isWord w after
  | .wordStartHalf w => !isWord w before
  | .wordEndHalf w => !isWord w after

end Assertion

namespace Regex

/-- A list of places without repetitions. -/
def mergePlaces (known new : List Nat) : List Nat :=
  new.foldl (fun places i => if places.contains i then places else i :: places) known

/-- The places reached from `frontier` by any number of steps.  Every round but the last
finds a new place, so one round more than there are places is enough fuel. -/
def closure (step : Nat → List Nat) : (fuel : Nat) → (known frontier : List Nat) → List Nat
  | 0, known, _ => known
  | fuel + 1, known, frontier =>
    let next := (mergePlaces [] (frontier.flatMap step)).filter (!known.contains ·)
    if next.isEmpty then known else closure step fuel (known ++ next) next

/-- The places an expression leads to from a place. -/
def ends (text : Array Char) : Regex → Nat → List Nat
  | .empty, i => [i]
  | .char set, i => if text[i]?.any (set.contains ·) then [i + 1] else []
  | .assert a, i => if a.holds text i then [i] else []
  | .seq a b, i => mergePlaces [] ((ends text a i).flatMap (ends text b))
  | .alt a b, i => mergePlaces (ends text a i) (ends text b i)
  | .star a, i => closure (ends text a) (text.size + 2) [i] [i]

/-- Whether an expression matches somewhere in a text. -/
def isMatch (r : Regex) (text : String) : Bool :=
  let chars := text.toList.toArray
  (List.range (chars.size + 1)).any fun i => !(ends chars r i).isEmpty

/-- Some expressions one after another. -/
def seqs : List Regex → Regex
  | [] => .empty
  | [r] => r
  | r :: rest => .seq r (seqs rest)

/-- Any of some expressions. -/
def alts : List Regex → Regex
  | [] => .empty
  | [r] => r
  | r :: rest => .alt r (alts rest)

/-- A number of repetitions. -/
def power (r : Regex) : Nat → Regex
  | 0 => .empty
  | n + 1 => .seq r (power r n)

/-- At most a number of repetitions. -/
def upTo (r : Regex) : Nat → Regex
  | 0 => .empty
  | n + 1 => .alt .empty (.seq r (upTo r n))

/-- At least `least` repetitions, and at most `most` if there is a limit. -/
def repeated (r : Regex) (least : Nat) : (most : Option Nat) → Regex
  | some most => .seq (power r least) (upTo r (most - least))
  | none => .seq (power r least) (.star r)

/-- The number of nodes. -/
def size : Regex → Nat
  | .empty | .char _ | .assert _ => 1
  | .seq a b | .alt a b => a.size + b.size + 1
  | .star a => a.size + 1

end Regex

end BundleCoverage
