import BundleCoverage.Text.Digits

/-!
# Flags

The flags of the program.  Some belong to every command and may stand before or after its
name.  A flag may have a value, and some values may come from a variable of the environment
instead.
-/

namespace BundleCoverage.CommandLine

open Text

/-- What the program can be told to do. -/
inductive Verb where
  /-- Collect the coverage of the server. -/
  | server
  /-- Merge what was collected. -/
  | merge
  /-- Remove what was collected. -/
  | clean
  /-- Show the options. -/
  | config
deriving Repr, DecidableEq, Inhabited

namespace Verb

/-- The name of a command. -/
def name : Verb → String
  | server => "server"
  | merge => "merge"
  | clean => "clean"
  | config => "config"

/-- All commands. -/
def all : List Verb := [server, merge, clean, config]

end Verb

/-- The flags of the program. -/
inductive Flag where
  /-- The file of the options. -/
  | config
  /-- Tell more. -/
  | verbose
  /-- Tell less. -/
  | quiet
  /-- The form of log lines. -/
  | logFormat
  /-- When to use colors. -/
  | color
  /-- Show the flags. -/
  | help
  /-- Show the version. -/
  | version
  /-- The inspector port of the server. -/
  | port
  /-- For how many seconds to collect. -/
  | duration
  /-- The names of the reporters. -/
  | reporters
  /-- Report sources without coverage as well. -/
  | all
  /-- Keep what was collected. -/
  | keepCache
  /-- The directory of the build. -/
  | buildDir
  /-- The directory of the reports. -/
  | outputDir
  /-- The directory of the cache. -/
  | cacheDir
deriving Repr, DecidableEq, Inhabited

namespace Flag

/-- The long name of a flag. -/
def name : Flag → String
  | config => "config"
  | verbose => "verbose"
  | quiet => "quiet"
  | logFormat => "log-format"
  | color => "color"
  | help => "help"
  | version => "version"
  | port => "port"
  | duration => "duration"
  | reporters => "reporters"
  | all => "all"
  | keepCache => "keep-cache"
  | buildDir => "build-dir"
  | outputDir => "output-dir"
  | cacheDir => "cache-dir"

/-- The letter of a flag, if it has one. -/
def letter? : Flag → Option Char
  | config => some 'c'
  | verbose => some 'v'
  | quiet => some 'q'
  | help => some 'h'
  | version => some 'V'
  | port => some 'p'
  | duration => some 'd'
  | reporters => some 'r'
  | _ => none

/-- The variable that a value can come from. -/
def environmentName? : Flag → Option String
  | config => some "NEXTCOV_CONFIG"
  | port => some "NEXTCOV_CDP_PORT"
  | buildDir => some "NEXTCOV_BUILD_DIR"
  | outputDir => some "NEXTCOV_OUTPUT_DIR"
  | _ => none

/-- Whether a flag may be given more than once. -/
def mayRepeat (f : Flag) : Bool := f == .verbose || f == .reporters

/-- The flags of every command. -/
def common : List Flag := [config, verbose, quiet, logFormat, color, help, version]

/-- The flags of a command. -/
def ofVerb (v : Verb) : List Flag :=
  let own := match v with
    | .server => [port, duration]
    | .merge => [reporters, all, keepCache]
    | .clean => []
    | .config => [port]
  common ++ own ++ [buildDir, outputDir, cacheDir]

end Flag

/-! ## Values -/

/-- Reads a port.  Zero may have a minus. -/
def port? (text : String) : Option UInt16 :=
  match text.toList with
  | '-' :: digits => if digits? 10 digits = some 0 then some 0 else none
  | digits => ((unsigned? digits).filter (· < 65536)).map UInt16.ofNat

/-- Reads a number of seconds. -/
def seconds? (text : String) : Option Nat :=
  (unsigned? text.toList).filter (· < 18446744073709551616)

/-- Which values a flag may have, if it has one. -/
def Flag.accepts? : Flag → Option (String → Bool)
  | config | buildDir | outputDir | cacheDir => some fun v => v ≠ ""
  | logFormat => some ["text", "json"].contains
  | color => some ["auto", "always", "never"].contains
  | port => some fun v => (port? v).isSome
  | duration => some fun v => (seconds? v).isSome
  | reporters => some fun _ => true
  | verbose | quiet | help | version | all | keepCache => none

end BundleCoverage.CommandLine
