import BundleCoverage.Cache.Basic
import BundleCoverage.Error
import BundleCoverage.Scope.ServerFilter

/-!
# Coverage of the server

A session with the inspector of the server takes its coverage once.  The commands go out in
one order: enable the profiler, start coverage, take it, stop it, close.  If enabling or
starting fails, the session is closed at once.  If taking fails, coverage is stopped and the
session is closed all the same, and there are no entries.

An inspector is what it answers to the commands it was sent, the last of which it answers
now.  So it may do anything that depends on the past.
-/

namespace BundleCoverage

/-- A command to an inspector. -/
inductive Command where
  /-- Makes the profiler ready. -/
  | enable
  /-- Starts counting. -/
  | startCoverage
  /-- Asks for the counts. -/
  | takeCoverage
  /-- Stops counting. -/
  | stopCoverage
  /-- Ends the session. -/
  | close
deriving Repr, DecidableEq, Inhabited

namespace Command

/-- The name of the method that a command calls, if it is a call. -/
def method? : Command → Option String
  | enable => some "Profiler.enable"
  | startCoverage => some "Profiler.startPreciseCoverage"
  | takeCoverage => some "Profiler.takePreciseCoverage"
  | stopCoverage => some "Profiler.stopPreciseCoverage"
  | close => none

/-- The parameters of a command. -/
def parameters : Command → Json
  | startCoverage => .obj [("callCount", .bool true), ("detailed", .bool true)]
  | _ => .obj []

end Command

/-- The answer to the last of some commands. -/
abbrev Inspector := List Command → Except Error Json

/-- How far a session is. -/
inductive SessionState where
  /-- There is no inspector, and coverage was not started. -/
  | detached
  /-- There is an inspector, and coverage was not started. -/
  | attached
  /-- Coverage is running. -/
  | running
  /-- Coverage was taken. -/
  | collected
deriving Repr, DecidableEq, Inhabited

/-- A session with the inspector of the server. -/
structure ServerSession where
  /-- The directory of the build. -/
  buildDirectory : String
  /-- The scripts in scope. -/
  filter : ServerFilter := {}
  /-- How far it is. -/
  state : SessionState := .attached
  /-- The commands that were sent, in order. -/
  sent : List Command := []
deriving Repr, DecidableEq, Inhabited

namespace ServerSession

/-- Whether there is an inspector at the other end. -/
def isConnected (s : ServerSession) : Bool := s.state == .attached || s.state == .running

/-- Sends a command. -/
def send (s : ServerSession) (inspector : Inspector) (c : Command) :
    ServerSession × Except Error Json :=
  let sent := s.sent ++ [c]
  ({ s with sent }, inspector sent)

/-- Closes the session.  The answer does not matter. -/
def close (s : ServerSession) (state : SessionState) : ServerSession :=
  { s with sent := s.sent ++ [.close], state }

/-- Starts coverage.  Says whether it is running. -/
def start (s : ServerSession) (inspector : Inspector) : ServerSession × Bool :=
  match s.state with
  | .running => (s, true)
  | .detached | .collected => (s, false)
  | .attached =>
    match s.send inspector .enable with
    | (s, .error _) => (s.close .detached, false)
    | (s, .ok _) =>
      match s.send inspector .startCoverage with
      | (s, .error _) => (s.close .detached, false)
      | (s, .ok _) => ({ s with state := .running }, true)

/-- The scripts in the answer to the command that takes coverage. -/
def scripts? (answer : Json) : Option (List Entry) :=
  match answer.get? "result" with
  | none => some []
  | some scripts => Json.toList? Entry.ofInspector? scripts

/-- The entry of a script with the text of its file, if it can be read. -/
def attachText (s : ServerSession) (d : Disk) (e : Entry) : Entry :=
  match (locateScript e.url s.buildDirectory).bind fun path => (path.readText d).toOption with
  | some text => { e with source := some text }
  | none => e

/-- The entries of the scripts in scope. -/
def entriesOf (s : ServerSession) (d : Disk) (scripts : List Entry) : List Entry :=
  (scripts.filter fun e => s.filter.accepts e.url s.buildDirectory).map (s.attachText d)

/-- Takes coverage if it is running, and closes the session. -/
def collect (s : ServerSession) (inspector : Inspector) (d : Disk) : ServerSession × List Entry :=
  match s.state with
  | .detached | .attached | .collected => (s, [])
  | .running =>
    let (s, taken) := s.send inspector .takeCoverage
    let (s, _) := s.send inspector .stopCoverage
    (s.close .collected, s.entriesOf d ((taken.toOption.bind scripts?).getD []))

/-- Takes coverage and writes it to a cache.  Gives the path of the document, if there were
entries. -/
def persist (s : ServerSession) (inspector : Inspector) (cache : Cache) (stamp : RunStamp)
    (d : Disk) : ServerSession × Disk × Except Error (Option String) :=
  match s.collect inspector d with
  | (s, []) => (s, d, .ok none)
  | (s, e :: entries) =>
    let (d, result) := cache.writeServer d stamp (e :: entries)
    (s, d, result.map some)

end ServerSession

end BundleCoverage
