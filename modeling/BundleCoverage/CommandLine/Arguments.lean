import BundleCoverage.CommandLine.Flag
import BundleCoverage.CommandLine.Settings
import BundleCoverage.Text.Split

/-!
# Arguments

Arguments are read from left to right: flags of every command, the name of the command,
and its flags.  The first thing that is wrong, or that asks for help or the version, ends
the reading.

A flag is `--name` or a letter after a minus; letters may share a minus.  A value follows
a flag after `=`, after the letter itself, or as the next argument, which then may not
look like a flag.

Values have an order: those after the command go before those in front of it, and these
before the variables of the environment.
-/

namespace BundleCoverage.CommandLine

open Text

/-- What ends the reading of arguments. -/
inductive Stop where
  /-- They cannot be used. -/
  | usage
  /-- They ask for help. -/
  | help
  /-- They ask for the version. -/
  | version
deriving Repr, DecidableEq, Inhabited

/-- A flag as it was given. -/
structure Given where
  /-- The flag. -/
  flag : Flag
  /-- Its value, if it has one. -/
  value : String := ""
deriving Repr, DecidableEq, Inhabited

/-- The variables of the environment. -/
abbrev Environment := List (String × String)

/-- Adds a flag to those that were given. -/
def addGiven (given : List Given) (g : Given) : Except Stop (List Given) :=
  if g.flag = .help then .error .help
  else if g.flag = .version then .error .version
  else if !g.flag.mayRepeat && given.any (·.flag = g.flag) then .error .usage
  else
    match g.flag.accepts? with
    | some accepts => if accepts g.value then .ok (given ++ [g]) else .error .usage
    | none => .ok (given ++ [g])

/-- Whether an argument is read as flags. -/
def looksLikeFlag (argument : List Char) : Bool :=
  match argument with
  | '-' :: _ :: _ => true
  | _ => false

/-- The flags after an argument, and the one among them that waits for its value. -/
abbrev Progress := List Given × Option Flag

/-- Reads the letters of an argument. -/
def readLetters (known : List Flag) (given : List Given) : List Char → Except Stop Progress
  | [] => .ok (given, none)
  | c :: rest =>
    match known.find? (·.letter? = some c) with
    | none => .error .usage
    | some flag =>
      match flag.accepts?, rest with
      | none, rest => (addGiven given { flag }).bind (readLetters known · rest)
      | some _, [] => .ok (given, some flag)
      | some _, '=' :: value => (addGiven given ⟨flag, String.ofList value⟩).map (·, none)
      | some _, value => (addGiven given ⟨flag, String.ofList value⟩).map (·, none)

/-- Reads a name and the value after it, if there is one. -/
def readName (known : List Flag) (given : List Given) (text : List Char) : Except Stop Progress :=
  let (name, value) := splitOnce '=' text
  match known.find? (·.name.toList = name) with
  | none => .error .usage
  | some flag =>
    match flag.accepts?, value with
    | none, some _ => .error .usage
    | some _, none => .ok (given, some flag)
    | _, value => (addGiven given ⟨flag, String.ofList (value.getD [])⟩).map (·, none)

/-- Reads flags up to the first argument that is none.  Nothing may follow two minuses. -/
def readFlags (known : List Flag) :
    Progress → List String → Except Stop (List Given × List String)
  | (given, none), [] => .ok (given, [])
  | (_, some _), [] => .error .usage
  | (given, some flag), argument :: rest =>
    if looksLikeFlag argument.toList then .error .usage
    else
      match addGiven given ⟨flag, argument⟩ with
      | .ok given => readFlags known (given, none) rest
      | .error stop => .error stop
  | (given, none), argument :: rest =>
    match argument.toList with
    | ['-', '-'] => if rest.isEmpty then .ok (given, []) else .error .usage
    | '-' :: '-' :: name =>
      match readName known given name with
      | .ok progress => readFlags known progress rest
      | .error stop => .error stop
    | '-' :: c :: letters =>
      match readLetters known given (c :: letters) with
      | .ok progress => readFlags known progress rest
      | .error stop => .error stop
    | _ => .ok (given, argument :: rest)

/-- Whether the variables that stand in for missing flags have values that can be used. -/
def variablesFit (environment : Environment) (known : List Flag) (given : List Given) : Bool :=
  known.all fun flag =>
    given.any (·.flag = flag) ||
      match flag.accepts?, flag.environmentName?.bind (environment.lookup ·) with
      | some accepts, some value => accepts value
      | _, _ => true

/-- Flags that were read, in front of the name of the command and after it. -/
structure Arguments where
  /-- What to do. -/
  verb : Verb
  /-- The flags in front. -/
  before : List Given
  /-- The flags after it. -/
  after : List Given
deriving Repr, DecidableEq, Inhabited

/-- What arguments ask for. -/
inductive Request where
  /-- A command. -/
  | perform (arguments : Arguments)
  /-- Help. -/
  | help
  /-- The version, of the program or of a command. -/
  | version (verb : Option Verb)
  /-- Nothing that can be done. -/
  | usage
deriving Repr, DecidableEq, Inhabited

/-- What a reading that stopped asks for. -/
def Stop.request (verb : Option Verb) : Stop → Request
  | usage => .usage
  | help => .help
  | version => .version verb

/-- The command of a name. -/
def Verb.ofName? (name : String) : Option Verb := all.find? (·.name = name)

/-- Whether words after `help` name something that there is help for. -/
def isHelpTopic : List String → Bool
  | [] => true
  | [topic] => topic = "help" || (Verb.ofName? topic).isSome
  | _ => false

/-- Reads what follows the name of a command. -/
def readCommand (environment : Environment) (verb : Verb) (before : List Given)
    (rest : List String) : Request :=
  match readFlags (Flag.ofVerb verb) ([], none) rest with
  | .error stop => stop.request (some verb)
  | .ok (_, _ :: _) => .usage
  | .ok (after, []) =>
    if variablesFit environment (Flag.ofVerb verb) after
        && variablesFit environment Flag.common before then
      .perform ⟨verb, before, after⟩
    else .usage

/-- Reads the arguments of the program. -/
def Request.read (environment : Environment) (arguments : List String) : Request :=
  match readFlags Flag.common ([], none) arguments with
  | .error stop => stop.request none
  | .ok (_, []) => .usage
  | .ok (before, name :: rest) =>
    if name = "help" then if isHelpTopic rest then .help else .usage
    else
      match Verb.ofName? name with
      | some verb => readCommand environment verb before rest
      | none => .usage

namespace Arguments

/-- The value of a flag. -/
def value? (a : Arguments) (environment : Environment) (flag : Flag) : Option String :=
  let last (given : List Given) : Option String :=
    (given.reverse.find? (·.flag = flag)).map (·.value)
  last a.after <|> last a.before <|> flag.environmentName?.bind (environment.lookup ·)

/-- Whether a flag was given. -/
def has (a : Arguments) (flag : Flag) : Bool := (a.before ++ a.after).any (·.flag = flag)

/-- How often more was asked for, by the flags after the command or else those in front. -/
def verboseCount (a : Arguments) : Nat :=
  let count (given : List Given) : Nat := given.countP (·.flag = .verbose)
  if count a.after = 0 then count a.before else count a.after

/-- The names of the reporters, each value split at its commas. -/
def reporters (a : Arguments) : List String :=
  (a.after.filter (·.flag = .reporters)).flatMap fun g =>
    (split ',' g.value.toList).map String.ofList

/-- The settings. -/
def settings (a : Arguments) : Settings where
  verbosity := .ofFlags (a.has .quiet) a.verboseCount
  color := match a.value? [] .color with
    | some "always" => .always
    | some "never" => .never
    | _ => .auto
  logFormat := if a.value? [] .logFormat = some "json" then .json else .text

end Arguments

end BundleCoverage.CommandLine
