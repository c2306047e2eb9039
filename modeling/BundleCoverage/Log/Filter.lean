import BundleCoverage.Log.Event
import BundleCoverage.Text.Blank
import BundleCoverage.Text.Digits
import BundleCoverage.Text.Search
import BundleCoverage.Text.Split
import BundleCoverage.Text.Word

/-!
# Log filters

A log filter is a list of directives, separated by commas.  A directive is a level, a
target, or a target and a level joined by `=`; a target alone, or with nothing after the
`=`, stands for all levels.  An event is decided by the directive with the longest target
that its target starts with, and by the later one of two with the same target.

A directive may name a span in brackets after its target.  The library has no spans, so
such a directive decides nothing.
-/

namespace BundleCoverage

open Text

/-- A rule of a log filter. -/
structure LogDirective where
  /-- What the target of an event has to start with. -/
  target : String := ""
  /-- The least level that passes, if any does. -/
  least : Option LogLevel
deriving Repr, DecidableEq

/-- Which events are shown. -/
structure LogFilter where
  /-- The rules. -/
  directives : List LogDirective
deriving Repr, DecidableEq

namespace LogFilter

/-- The filter for a level and those that matter more. -/
def ofLevel (level : LogLevel) : LogFilter := ⟨[{ least := some level }]⟩

/-- The rule that decides events of a target. -/
def deciding? (f : LogFilter) (target : String) : Option LogDirective :=
  f.directives.foldl (fun best directive =>
    let longer := match best with
      | some b => b.target.utf8ByteSize ≤ directive.target.utf8ByteSize
      | none => true
    if startsWith target.toList directive.target.toList && longer then some directive else best)
    none

/-- Whether an event is shown. -/
def passes (f : LogFilter) (e : Event) : Bool :=
  match f.deciding? e.target with
  | some ⟨_, some least⟩ => least.rank ≤ e.level.rank
  | _ => false

/-- The levels as numbers, from what shows nothing to what shows all. -/
def numbered : List (Option LogLevel) :=
  [none, some .error, some .warn, some .info, some .debug, some .trace]

/-- Reads a level: its name, whatever the case, its number, or `off`. -/
def level? (text : List Char) : Option (Option LogLevel) :=
  let name := String.ofList (text.map Char.toLower)
  if name = "off" then some none
  else
    match LogLevel.all.find? fun l => l.name = name with
    | some level => some (some level)
    | none => (unsigned? text).bind (numbered[·]?)

/-- Reads what follows the `=` of a directive. -/
def levelAfter? (text : List Char) : Option (Option LogLevel) :=
  if text.isEmpty then some (some .trace) else level? text

/-- Whether a directive may start with a character. -/
def startsDirective (c : Char) : Bool := isWord c || c = '-' || c = ':' || c = '['

/-- Whether a text can follow the bracket that opens a span. -/
def isSpanRest (text : List Char) : Bool :=
  match splitOnce ']' text with
  | (span, some rest) =>
    (!span.contains '\x7b' || span.getLast? = some '\x7d')
      && (rest.isEmpty || (rest.head? = some '=' && (levelAfter? (rest.drop 1)).isSome))
  | _ => false

/-- Reads a directive.  One about spans is read and has no rule. -/
def directive? (text : List Char) : Option (Option LogDirective) :=
  if !((trim text).head?.any startsDirective) then none
  else
    let target := text.takeWhile fun c => c ≠ '=' && c ≠ '['
    match text.dropWhile fun c => c ≠ '=' && c ≠ '[' with
    | [] =>
      match level? text with
      | some least => some (some { least })
      | none => some (some ⟨String.ofList text, some .trace⟩)
    | '=' :: level =>
      if text.head?.any isBlank then none
      else (levelAfter? level).map fun least => some ⟨String.ofList target, least⟩
    | _ :: span => if isSpanRest span then some none else none

/-- Reads a filter. -/
def parse? (text : String) : Option LogFilter :=
  (((split ',' text.toList).filter (· ≠ [])).mapM directive?).map fun directives =>
    ⟨directives.filterMap id⟩

end LogFilter

end BundleCoverage
