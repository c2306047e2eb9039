import BundleCoverage.Log.Filter

/-!
# Settings

How much the program tells, in which form, and with or without colors.  A log filter in the
environment takes the place of the one that the verbosity gives, unless it cannot be read.
-/

namespace BundleCoverage.CommandLine

/-- How much the program tells. -/
inductive Verbosity where
  /-- Errors only. -/
  | quiet
  /-- What the user asked for. -/
  | normal
  /-- The steps of a run as well. -/
  | verbose
  /-- What happens to each script as well. -/
  | debug
deriving Repr, DecidableEq, Inhabited

namespace Verbosity

/-- The verbosity by the flags for less and for more. -/
def ofFlags (quiet : Bool) (verbose : Nat) : Verbosity :=
  if quiet then .quiet
  else
    match verbose with
    | 0 => .normal
    | 1 => .verbose
    | _ => .debug

/-- Whether only errors are told. -/
def isQuiet (v : Verbosity) : Bool := v == .quiet

/-- Whether more than usual is told. -/
def isVerbose (v : Verbosity) : Bool := v == .verbose || v == .debug

/-- The least level of the events that are shown. -/
def level : Verbosity → LogLevel
  | quiet => .error
  | normal => .warn
  | verbose => .info
  | debug => .debug

end Verbosity

/-- When colors are used. -/
inductive ColorChoice where
  /-- On a terminal. -/
  | auto
  /-- Always. -/
  | always
  /-- Never. -/
  | never
deriving Repr, DecidableEq, Inhabited

/-- Whether colors are used. -/
def ColorChoice.useColor (c : ColorChoice) (onTerminal : Bool) : Bool :=
  match c with
  | auto => onTerminal
  | always => true
  | never => false

/-- The form of log lines. -/
inductive LogFormat where
  /-- Lines to read. -/
  | text
  /-- A JSON object a line. -/
  | json
deriving Repr, DecidableEq, Inhabited

/-- The settings of the program. -/
structure Settings where
  /-- How much it tells. -/
  verbosity : Verbosity := .normal
  /-- When it uses colors. -/
  color : ColorChoice := .auto
  /-- The form of its log lines. -/
  logFormat : LogFormat := .text
deriving Repr, DecidableEq, Inhabited

/-- The filter of the events that are shown, given one from the environment. -/
def Settings.logFilter (s : Settings) (fromEnvironment : Option String) : LogFilter :=
  (fromEnvironment.bind LogFilter.parse?).getD (.ofLevel s.verbosity.level)

end BundleCoverage.CommandLine
