import BundleCoverage.CommandLine.Arguments
import BundleCoverage.CommandLine.Printer
import BundleCoverage.Inspector.Discovery
import BundleCoverage.Inspector.Session
import BundleCoverage.Options.Read
import BundleCoverage.Run

/-!
# Commands

A command works by the options of a file, or by the defaults, with directories and other
values from the command line in their place.  It changes the host and either succeeds or
says why it failed.

Merging removes the cache after the reports are made, unless it is told to keep it or there
was nothing to report.
-/

namespace BundleCoverage.CommandLine

/-- The name of the program with its version. -/
def programVersion (verb : Option Verb) : String :=
  let name := match verb with
    | some v => s!"nextcov-{v.name}"
    | none => "nextcov"
  s!"{name} 0.4.0"

/-- The host that inspectors run on. -/
def inspectorHost : String := "127.0.0.1"

namespace Arguments

/-- Options with the directories of the command line in place of theirs. -/
def placeDirectories (a : Arguments) (environment : Environment) (o : Options) : Options :=
  { o with
    buildDirectory := (a.value? environment .buildDir).getD o.buildDirectory
    outputDirectory := (a.value? environment .outputDir).getD o.outputDirectory
    cacheDirectory? := a.value? environment .cacheDir <|> o.cacheDirectory? }

/-- Options with the inspector port of the command line in place of theirs. -/
def placePort (a : Arguments) (environment : Environment) (o : Options) : Options :=
  match (a.value? environment .port).bind port? with
  | some inspectorPort => { o with inspectorPort }
  | none => o

/-- Options with the reporters of the command line in place of theirs. -/
def placeReporters (a : Arguments) (o : Options) : Options :=
  { o with
    reporters := if a.reporters.isEmpty then o.reporters else a.reporters
    seedAll := o.seedAll || a.has .all }

/-- The options that a command works by. -/
def options (a : Arguments) (environment : Environment) (d : Disk) : Except Error Options := do
  let o ← match a.value? environment .config with
    | some file => Options.load d file
    | none => pure {}
  let o := a.placeDirectories environment o
  return match a.verb with
    | .server | .config => a.placePort environment o
    | .merge => a.placeReporters o
    | .clean => o

end Arguments

/-- What a command leads to. -/
abbrev Outcome := Host × Except Failure Unit

/-- Shows the options. -/
def showOptions (o : Options) (h : Host) : Outcome := (h.printLine o.render, .ok ())

/-- Removes the cache. -/
def clean (p : Printer) (o : Options) (h : Host) : Outcome :=
  let run : Run := { options := o }
  match run.cleanUp h with
  | (h, .error e) => (h, .error (.library e))
  | (h, .ok true) => (p.message .success s!"Removed {o.cacheDirectory}" h, .ok ())
  | (h, .ok false) => (p.message .info s!"Nothing to clean at {o.cacheDirectory}" h, .ok ())

/-- Tells what a run came to. -/
def tell (p : Printer) (r : Report) (h : Host) : Host :=
  let merged := s!"Merged {r.stats.entries} entries into {r.map.size} files"
  p.messages .info (summaryLine r.summary :: r.written.map fun path => s!"Report: {path}")
    (p.message .success merged h)

/-- Merges what was collected and makes the reports. -/
def merge (p : Printer) (o : Options) (keepCache : Bool) (h : Host) : Outcome :=
  match Run.ofOptions h.disk o with
  | .error e => (h, .error (.library e))
  | .ok run =>
    match run.run h with
    | (h, .error e) => (h, .error (.library e))
    | (h, .ok none) => (h.printLine "No coverage data collected", .ok ())
    | (h, .ok (some report)) =>
      let h := tell p report h
      if keepCache then (h, .ok ())
      else
        let (h, result) := run.cleanUp h
        (h, (result.map fun _ => ()).mapError .library)

/-- A session with the inspector of the server, or with none that is there. -/
def connect (o : Options) (inspector : Option Inspector) (h : Host) : ServerSession × Host :=
  let session : ServerSession := { buildDirectory := o.buildDirectory, filter := o.server }
  let h := h.log [.connecting s!"http://{inspectorHost}:{o.inspectorPort}/"]
  match inspector with
  | some _ => (session, h)
  | none => ({ session with state := .detached }, h.log [.serverUnavailable])

/-- Collects the coverage of the server. -/
def collect (p : Printer) (o : Options) (seconds : Option Nat) (inspector : Option Inspector)
    (stamp : RunStamp) (h : Host) : Outcome :=
  match o.validate h.disk with
  | .error e => (h, .error (.library e))
  | .ok () =>
    let (session, h) := connect o inspector h
    let reply := inspector.getD fun _ => .error (.inspector "")
    match session.start reply with
    | (_, false) =>
      (p.message .warning
        s!"No inspector on port {o.inspectorPort}; server coverage skipped" h, .ok ())
    | (session, true) =>
      let h := p.message .info (waitLine o.inspectorPort seconds) h
      let (_, disk, result) := session.persist reply ⟨o.cacheDirectory⟩ stamp h.disk
      let h := { h with disk }
      match result with
      | .error e => (h, .error (.library e))
      | .ok (some path) => (p.message .success s!"Server coverage written to {path}" h, .ok ())
      | .ok none => (p.message .warning "No server coverage collected" h, .ok ())

/-- Performs a command. -/
def perform (a : Arguments) (environment : Environment) (onTerminal : Bool)
    (inspector : Option Inspector) (stamp : RunStamp) (h : Host) : Outcome :=
  let p := a.settings.printer onTerminal
  match a.options environment h.disk with
  | .error e => (h, .error (.library e))
  | .ok o =>
    match a.verb with
    | .server => collect p o ((a.value? environment .duration).bind seconds?) inspector stamp h
    | .merge => merge p o (a.has .keepCache) h
    | .clean => clean p o h
    | .config => showOptions o h

/-- The events among some that are shown. -/
def shownEvents (a : Arguments) (environment : Environment) (events : List Event) :
    List Event :=
  events.filter (a.settings.logFilter (environment.lookup "NEXTCOV_LOG")).passes

end BundleCoverage.CommandLine
