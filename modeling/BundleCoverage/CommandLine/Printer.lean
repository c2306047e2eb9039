import BundleCoverage.Coverage.Tally
import BundleCoverage.CommandLine.Settings
import BundleCoverage.Error
import BundleCoverage.Log.Host

/-!
# What the program prints

Messages have a mark of their kind in front, a sign where colors are used and a word
elsewhere.  A quiet program prints none of them, but it prints what was asked for.
-/

namespace BundleCoverage.CommandLine

/-- The kinds of messages. -/
inductive Mark where
  /-- Something was done. -/
  | success
  /-- Something is missing. -/
  | warning
  /-- Something to know. -/
  | info
deriving Repr, DecidableEq, Inhabited

/-- How a kind of message is marked. -/
def Mark.text (useColor : Bool) : Mark → String
  | success => if useColor then "✓" else "OK"
  | warning => if useColor then "⚠" else "WARN"
  | info => if useColor then "ℹ" else "INFO"

/-- How the program prints. -/
structure Printer where
  /-- Whether it uses colors. -/
  useColor : Bool := false
  /-- Whether it prints no messages. -/
  quiet : Bool := false
deriving Repr, DecidableEq, Inhabited

/-- The printer of some settings. -/
def Settings.printer (s : Settings) (onTerminal : Bool) : Printer :=
  ⟨s.color.useColor onTerminal, s.verbosity.isQuiet⟩

namespace Printer

/-- Prints a message. -/
def message (p : Printer) (mark : Mark) (text : String) (h : Host) : Host :=
  if p.quiet then h else h.printLine s!"{mark.text p.useColor} {text}"

/-- Prints some messages of a kind. -/
def messages (p : Printer) (mark : Mark) : List String → Host → Host
  | [], h => h
  | text :: texts, h => p.messages mark texts (p.message mark text h)

@[simp] theorem message_disk (p : Printer) (mark : Mark) (text : String) (h : Host) :
    (p.message mark text h).disk = h.disk := by
  unfold message
  split <;> rfl

@[simp] theorem messages_disk (p : Printer) (mark : Mark) (texts : List String) (h : Host) :
    (p.messages mark texts h).disk = h.disk := by
  induction texts generalizing h with
  | nil => rfl
  | cons text texts ih => simp [messages, ih]

end Printer

/-! ## Wordings -/

/-- The tallies of a summary in one line. -/
def summaryLine (s : Summary) : String :=
  s!"Lines {s.lines.percentText}% | Statements {s.statements.percentText}% | "
    ++ s!"Functions {s.functions.percentText}% | Branches {s.branches.percentText}%"

/-- What is told while coverage of the server is running. -/
def waitLine (port : UInt16) (seconds : Option Nat) : String :=
  match seconds with
  | some n => s!"Collecting server coverage on port {port} for {n}s"
  | none => s!"Collecting server coverage on port {port}; press Ctrl-C to stop"

/-- Why the program fails. -/
inductive Failure where
  /-- An argument cannot be used. -/
  | argument (message : String)
  /-- The program cannot go on. -/
  | runtime (message : String)
  /-- The library failed. -/
  | library (e : Error)
deriving Repr, DecidableEq

/-- The wording of a failure. -/
def Failure.text : Failure → String
  | argument message => s!"Invalid argument: {message}"
  | runtime message => s!"Runtime error: {message}"
  | library e => e.message

end BundleCoverage.CommandLine
