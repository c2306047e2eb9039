import BundleCoverage.CommandLine.Arguments

/-!
# Help

A list of the commands and of the flags that each of them knows.
-/

namespace BundleCoverage.CommandLine

/-- What a command does. -/
def Verb.about : Verb → String
  | server => "Collect the coverage of the server from its inspector"
  | merge => "Merge what was collected and make the reports"
  | clean => "Remove what was collected"
  | config => "Show the options"

/-- How a flag is written. -/
def Flag.written (f : Flag) : String :=
  let letter := match f.letter? with
    | some c => s!"-{c}, "
    | none => "    "
  let value := if f.accepts?.isSome then s!" <{f.name.toUpper}>" else ""
  s!"  {letter}--{f.name}{value}\n"

/-- A list of flags. -/
def flagList (flags : List Flag) : String := String.join (flags.map Flag.written)

/-- The line about a command in a list of commands. -/
def Verb.line (v : Verb) : String :=
  "  " ++ v.name.pushn ' ' (8 - v.name.length) ++ v.about ++ "\n"

/-- Help about the program. -/
def help : String :=
  "Usage: nextcov [OPTIONS] <COMMAND>\n\nCommands:\n" ++ String.join (Verb.all.map Verb.line)
    ++ "\nOptions of every command:\n" ++ flagList Flag.common
    ++ String.join (Verb.all.map fun v =>
      s!"\nOptions of {v.name}:\n" ++ flagList ((Flag.ofVerb v).drop Flag.common.length))

end BundleCoverage.CommandLine
