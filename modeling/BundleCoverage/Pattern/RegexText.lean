import BundleCoverage.Pattern.Regex
import BundleCoverage.Text.Digits
import BundleCoverage.Text.Search
import BundleCoverage.Text.Split

/-!
# The text of regular expressions

Reads the text of a regular expression: alternatives, repetitions, groups with flags,
sets with set operations, classes and assertions.  There are no references to groups and
no conditions on what stands before or after.

Classes are those of Unicode unless a flag restricts them to ASCII.  With that flag, what
could match a part of a character is refused.

Of the properties of characters five names are read (`property?`): those of all characters, of
ASCII, of decimal digits, which have two, and of white space.  An expression with another
property is refused, also where Unicode has it.
-/

namespace BundleCoverage.Regex

open Text

/-- The flags that change how an expression is read. -/
structure Flags where
  /-- Letters match in both cases. -/
  ignoreCase : Bool := false
  /-- Line anchors match at every line. -/
  multiLine : Bool := false
  /-- The point matches line feeds. -/
  dotNewline : Bool := false
  /-- White space and comments do not count. -/
  verbose : Bool := false
  /-- Carriage returns end lines. -/
  crlf : Bool := false
  /-- Classes are those of Unicode. -/
  unicode : Bool := true
deriving Repr, DecidableEq

/-- The input after white space and comments, if they do not count. -/
def skip (flags : Flags) (input : List Char) : List Char :=
  if !flags.verbose then input
  else (input.foldl (fun (state : Bool × Bool × List Char) c =>
    -- Whether something was found, whether inside a comment, and what was found, reversed.
    match state with
    | (true, _, found) => (true, false, c :: found)
    | (false, true, found) => (false, c ≠ '\n', found)
    | (false, false, found) =>
      if isBlank c then (false, false, found)
      else if c = '#' then (false, true, found)
      else (true, false, c :: found)) (false, false, [])).2.2.reverse

/-! ## Escapes -/

/-- What an escape stands for. -/
inductive Escaped
  /-- A character. -/
  | literal (c : Char)
  /-- A class. -/
  | set (s : CharSet)
  /-- A condition. -/
  | assert (a : Assertion)

/-- The complement of a class, which has to be one of Unicode. -/
def complement? (flags : Flags) (set : CharSet) : Option CharSet :=
  if flags.unicode then some (.complement set) else none

/-- A class of Unicode or its ASCII part. -/
def classOf (flags : Flags) (full : CharSet) (name : String) : CharSet :=
  if flags.unicode then full else (CharSet.named? false name).getD .none

/-- The word characters under some flags. -/
def wordSet (flags : Flags) : CharSet := classOf flags .word "word"

/-- A character given by `width` hexadecimal digits, or any number of them in braces. -/
def hexEscape? (width : Nat) : List Char → Option (Escaped × List Char)
  | '\x7b' :: input =>
    match splitOnce '\x7d' input with
    | (digits, some rest) => (hexChar? digits).map fun c => (.literal c, rest)
    | _ => none
  | input =>
    if input.length < width then none
    else (hexChar? (input.take width)).map fun c => (.literal c, input.drop width)

/-- A class given by the name of a property. -/
def property? (name : String) : Option CharSet :=
  match name.toLower with
  | "any" => some (.range 0 0x10FFFF false)
  | "ascii" => some (.range 0 0x7F false)
  | "nd" => some .digit
  | "decimal_number" => some .digit
  | "white_space" => some .space
  | _ => none

/-- A class given by a property of one letter, or of any name in braces. -/
def propertyEscape? (flags : Flags) (negated : Bool) (input : List Char) :
    Option (Escaped × List Char) := do
  if !flags.unicode then none
  let (name, rest) ← match input with
    | '\x7b' :: input =>
      match splitOnce '\x7d' input with
      | (name, some rest) => some (name, rest)
      | _ => none
    | c :: rest => some ([c], rest)
    | [] => none
  let (flip, name) := match name with
    | '^' :: name => (true, name)
    | name => (false, name)
  let set ← property? (String.ofList name)
  return (.set (if negated != flip then .complement set else set), rest)

/-- A word boundary, perhaps of a kind that is named in braces. -/
def boundaryEscape? (flags : Flags) (input : List Char) : Option (Escaped × List Char) :=
  let inWords := wordSet flags
  let plain : Option (Escaped × List Char) := some (.assert (.wordBoundary inWords), input)
  match input with
  | '\x7b' :: input =>
    if input.head?.any fun c => c.isAlpha || c = '-' then
      match splitOnce '\x7d' input with
      | (name, some rest) =>
        match String.ofList name with
        | "start" => some (.assert (.wordStart inWords), rest)
        | "end" => some (.assert (.wordEnd inWords), rest)
        | "start-half" => some (.assert (.wordStartHalf inWords), rest)
        | "end-half" => some (.assert (.wordEndHalf inWords), rest)
        | _ => none
      | _ => none
    else plain
  | _ => plain

/-- What follows a backslash. -/
def escape? (flags : Flags) : List Char → Option (Escaped × List Char)
  | [] => none
  | c :: input =>
    let literal (n : Nat) : Option (Escaped × List Char) := some (.literal (Char.ofNat n), input)
    let set (s : Option CharSet) : Option (Escaped × List Char) := s.map fun s => (.set s, input)
    let assert (a : Assertion) : Option (Escaped × List Char) := some (.assert a, input)
    match c with
    | 'x' => hexEscape? 2 input
    | 'u' => hexEscape? 4 input
    | 'U' => hexEscape? 8 input
    | 'p' => propertyEscape? flags false input
    | 'P' => propertyEscape? flags true input
    | 'd' => set (some (classOf flags .digit "digit"))
    | 'D' => set (complement? flags .digit)
    | 's' => set (some (classOf flags .space "space"))
    | 'S' => set (complement? flags .space)
    | 'w' => set (some (wordSet flags))
    | 'W' => set (complement? flags .word)
    | 'a' => literal 7
    | 'f' => literal 0xC
    | 't' => literal 9
    | 'n' => literal 0xA
    | 'r' => literal 0xD
    | 'v' => literal 0xB
    | 'A' => assert .textStart
    | 'z' => assert .textEnd
    | 'b' => boundaryEscape? flags input
    | 'B' => assert (.noWordBoundary (wordSet flags))
    | '<' => assert (.wordStart (wordSet flags))
    | '>' => assert (.wordEnd (wordSet flags))
    | c => if c.toNat < 0x80 && !c.isAlphanum then literal c.toNat else none

/-! ## Sets -/

/-- An operation on two sets. -/
inductive SetOp
  | inter
  | difference
  | symmetric

/-- The set of what was read so far: an operation that waits for its second set, and the
members of that set. -/
def combine (waiting : Option (SetOp × CharSet)) (members : List CharSet) : CharSet :=
  let right := CharSet.unions members.reverse
  match waiting with
  | none => right
  | some (.inter, left) => .inter left right
  | some (.difference, left) => .difference left right
  | some (.symmetric, left) => .symmetricDifference left right

/-- A named class in a set, from its inner bracket on. -/
def namedClass? (flags : Flags) (input : List Char) : Option (CharSet × List Char) := do
  let input ← stripPrefix? "[:".toList input
  let (negated, input) := match input with
    | '^' :: input => (true, input)
    | input => (false, input)
  let (name, rest) ← cut? ":]".toList input
  let set ← CharSet.named? flags.ignoreCase (String.ofList name)
  return (if negated then .complement set else set, rest)

/-- A single member of a set. -/
def setItem? (flags : Flags) : List Char → Option (Escaped × List Char)
  | [] => none
  | '\\' :: input =>
    match escape? flags input with
    | some (.assert _, _) => none
    | result => result
  | c :: input => some (.literal c, input)

/-- A member of a set: a character, a class or a range. -/
def setMember? (flags : Flags) (input : List Char) : Option (CharSet × List Char) := do
  let (item, rest) ← setItem? flags input
  let rest := skip flags rest
  let alone : Option (CharSet × List Char) := match item with
    | .literal c => some (.one flags.ignoreCase c, rest)
    | .set s => some (s, rest)
    | .assert _ => none
  match rest with
  | [] => none
  | '-' :: after =>
    let after := skip flags after
    match after with
    | [] => none
    | c :: _ =>
      if c = ']' || c = '-' then alone
      else
        match item, ← setItem? flags after with
        | .literal a, (.literal b, rest) =>
          if a ≤ b then some (.range a.toNat b.toNat flags.ignoreCase, rest) else none
        | _, _ => none
  | _ => alone

/-- The dashes and the closing bracket that stand for themselves at the start of a set. -/
def leading (flags : Flags) (input : List Char) : List CharSet × List Char :=
  let dashes := input.takeWhile (· = '-')
  let rest := input.drop dashes.length
  match dashes, rest with
  | [], ']' :: rest => ([.one flags.ignoreCase ']'], rest)
  | [], rest => ([], rest)
  | _, rest => ([.one flags.ignoreCase '-'], rest)

mutual

/-- A set from what follows its opening bracket. -/
def set? (flags : Flags) : (fuel : Nat) → List Char → Option (CharSet × List Char)
  | 0, _ => none
  | fuel + 1, input =>
    match skip flags input with
    | '^' :: input =>
      let (members, rest) := leading flags (skip flags input)
      match setFrom? flags fuel none members rest with
      | some (set, rest) => (complement? flags set).map (·, rest)
      | none => none
    | input =>
      let (members, rest) := leading flags input
      setFrom? flags fuel none members rest

/-- The rest of a set, after what was read. -/
def setFrom? (flags : Flags) : (fuel : Nat) → Option (SetOp × CharSet) → List CharSet →
    List Char → Option (CharSet × List Char)
  | 0, _, _, _ => none
  | fuel + 1, waiting, members, input =>
    let operation (op : SetOp) (rest : List Char) : Option (CharSet × List Char) :=
      setFrom? flags fuel (some (op, combine waiting members)) [] rest
    match skip flags input with
    | [] => none
    | ']' :: rest => some (combine waiting members, rest)
    | '&' :: '&' :: rest => operation .inter rest
    | '-' :: '-' :: rest => operation .difference rest
    | '~' :: '~' :: rest => operation .symmetric rest
    | '[' :: rest =>
      match namedClass? flags ('[' :: rest) with
      | some (set, rest) => setFrom? flags fuel waiting (set :: members) rest
      | none =>
        match set? flags fuel rest with
        | some (set, rest) => setFrom? flags fuel waiting (set :: members) rest
        | none => none
    | input =>
      match setMember? flags input with
      | some (set, rest) => setFrom? flags fuel waiting (set :: members) rest
      | none => none

end

/-! ## Repetitions -/

/-- The number of repetitions in braces, from after the opening brace. -/
def counts? (input : List Char) : Option ((Nat × Option Nat) × List Char) := do
  let (inside, rest) ← match splitOnce '\x7d' input with
    | (inside, some rest) => some (inside, rest)
    | _ => none
  let number (digits : List Char) : Option Nat :=
    (digits? 10 (trim digits)).filter (· < 4294967296)
  match splitOnce ',' inside with
  | (least, none) => do
    let n ← number least
    return ((n, some n), rest)
  | (least, some most) => do
    let n ← number least
    if (trim most).isEmpty then return ((n, none), rest)
    let m ← number most
    if n ≤ m then return ((n, some m), rest) else none

/-- The largest expression that is accepted. -/
def maxSize : Nat := 100000

/-- A repetition, unless it is too large. -/
def repeated? (r : Regex) (least : Nat) (most : Option Nat) : Option Regex :=
  if (r.size + 1) * (max least (most.getD 1) + 1) ≤ maxSize then some (repeated r least most)
  else none

/-! ## Groups -/

/-- Sets one flag. -/
def Flags.set (flags : Flags) (value : Bool) : Char → Option Flags
  | 'i' => some { flags with ignoreCase := value }
  | 'm' => some { flags with multiLine := value }
  | 's' => some { flags with dotNewline := value }
  | 'x' => some { flags with verbose := value }
  | 'R' => some { flags with crlf := value }
  | 'u' => some { flags with unicode := value }
  | 'U' => some flags
  | _ => none

/-- The flags given by some letters.  Those after a dash are cleared; none is given twice. -/
def flagsOf? (flags : Flags) (letters : List Char) : Option Flags :=
  if letters.getLast? = some '-' || 1 < letters.count '-'
      || letters.eraseDups.length < letters.length then none
  else
    let (on, off) := splitOnce '-' letters
    let flags := on.foldlM (fun f c => f.set true c) flags
    flags.bind fun flags => (off.getD []).foldlM (fun f c => f.set false c) flags

/-- Whether a text can be the name of a group. -/
def isGroupName : List Char → Bool
  | [] => false
  | c :: rest =>
    (c = '_' || c.isAlpha) && rest.all fun c => c.isAlphanum || "_.[]".toList.contains c

/-- How a group starts. -/
inductive GroupStart
  /-- A group with flags of its own. -/
  | group (flags : Flags)
  /-- A group with a name. -/
  | named (name : String)
  /-- Flags for the rest of the group around. -/
  | flags (flags : Flags)

/-- Reads what stands between the opening of a group and its content. -/
def groupStart? (flags : Flags) (input : List Char) : Option (GroupStart × List Char) :=
  match input with
  | '?' :: rest =>
    let named (rest : List Char) : Option (GroupStart × List Char) :=
      match splitOnce '>' rest with
      | (name, some rest) =>
        if isGroupName name then some (.named (String.ofList name), rest) else none
      | _ => none
    match rest with
    | 'P' :: '<' :: rest => named rest
    | '<' :: rest => named rest
    | rest =>
      let letters := rest.takeWhile fun c => c ≠ ':' && c ≠ ')'
      match rest.drop letters.length with
      | ':' :: rest => (flagsOf? flags letters).map fun f => (.group f, rest)
      | ')' :: rest =>
        if letters.isEmpty then none else (flagsOf? flags letters).map fun f => (.flags f, rest)
      | _ => none
  | rest => some (.group flags, rest)

/-! ## Expressions -/

/-- What was read of a group: the alternatives before, and the items of the current one, the
last one first.  An item that is no expression cannot be repeated. -/
structure Partial where
  /-- The alternatives before. -/
  done : List Regex := []
  /-- The items of the current alternative. -/
  items : List (Option Regex) := []

/-- The current alternative. -/
def Partial.current (p : Partial) : Regex := seqs (p.items.reverse.filterMap id)

/-- The whole expression. -/
def Partial.regex (p : Partial) : Regex := alts (p.done ++ [p.current])

/-- One more item. -/
def Partial.add (p : Partial) (r : Regex) : Partial := { p with items := some r :: p.items }

/-- The last item repeated. -/
def Partial.repeat? (p : Partial) (least : Nat) (most : Option Nat) : Option Partial :=
  match p.items with
  | some r :: items => (repeated? r least most).map fun r => { p with items := some r :: items }
  | _ => none

/-- The input after the mark of a repetition that prefers few. -/
def dropLazy (flags : Flags) (input : List Char) : List Char :=
  match skip flags input with
  | '?' :: rest => rest
  | input => input

/-- The expression for a point. -/
def anyChar? (flags : Flags) : Option Regex :=
  if !flags.unicode then none
  else if flags.dotNewline then some (.char (.range 0 0x10FFFF false))
  else if flags.crlf then
    some (.char (.complement (.union (.one false '\n') (.one false '\r'))))
  else some (.char (.complement (.one false '\n')))

/-- Reads the rest of a group up to its closing parenthesis or the end of the input.  Gives
the expression, the names of all groups so far and the remaining input.  Every call takes
a character, so the length of the input is enough fuel. -/
def groupFrom? : (fuel : Nat) → Flags → List String → Partial → List Char →
    Option (Regex × List String × List Char)
  | 0, _, _, _, _ => none
  | fuel + 1, flags, names, p, input =>
    let repetition (least : Nat) (most : Option Nat) (rest : List Char) :
        Option (Regex × List String × List Char) :=
      match p.repeat? least most with
      | some p => groupFrom? fuel flags names p (dropLazy flags rest)
      | none => none
    match skip flags input with
    | [] => some (p.regex, names, [])
    | ')' :: rest => some (p.regex, names, ')' :: rest)
    | '|' :: rest => groupFrom? fuel flags names ⟨p.done ++ [p.current], []⟩ rest
    | '*' :: rest => repetition 0 none rest
    | '+' :: rest => repetition 1 none rest
    | '?' :: rest => repetition 0 (some 1) rest
    | '\x7b' :: rest =>
      match counts? rest with
      | some ((least, most), rest) => repetition least most rest
      | none => none
    | '(' :: rest =>
      match groupStart? flags rest with
      | none => none
      | some (.flags flags, rest) =>
        groupFrom? fuel flags names { p with items := none :: p.items } rest
      | some (.group inner, rest) =>
        match groupFrom? fuel inner names {} rest with
        | some (r, names, ')' :: rest) => groupFrom? fuel flags names (p.add r) rest
        | _ => none
      | some (.named name, rest) =>
        if names.contains name then none
        else
          match groupFrom? fuel flags (name :: names) {} rest with
          | some (r, names, ')' :: rest) => groupFrom? fuel flags names (p.add r) rest
          | _ => none
    | '[' :: rest =>
      match set? flags (2 * rest.length + 2) rest with
      | some (set, rest) => groupFrom? fuel flags names (p.add (.char set)) rest
      | none => none
    | '.' :: rest =>
      match anyChar? flags with
      | some r => groupFrom? fuel flags names (p.add r) rest
      | none => none
    | '^' :: rest =>
      let a := if flags.multiLine then Assertion.lineStart flags.crlf else .textStart
      groupFrom? fuel flags names (p.add (.assert a)) rest
    | '$' :: rest =>
      let a := if flags.multiLine then Assertion.lineEnd flags.crlf else .textEnd
      groupFrom? fuel flags names (p.add (.assert a)) rest
    | '\\' :: rest =>
      match escape? flags rest with
      | some (.literal c, rest) =>
        groupFrom? fuel flags names (p.add (.char (.one flags.ignoreCase c))) rest
      | some (.set s, rest) => groupFrom? fuel flags names (p.add (.char s)) rest
      | some (.assert a, rest) => groupFrom? fuel flags names (p.add (.assert a)) rest
      | none => none
    | c :: rest => groupFrom? fuel flags names (p.add (.char (.one flags.ignoreCase c))) rest

/-- Reads an expression. -/
def parse? (text : String) : Option Regex :=
  let input := text.toList
  match groupFrom? (input.length + 1) {} [] {} input with
  | some (r, _, []) => if r.size ≤ maxSize then some r else none
  | _ => none

end BundleCoverage.Regex
