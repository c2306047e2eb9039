import BundleCoverage.Inspector.Target

/-!
# Finding the inspector

An inspector tells over HTTP what can be debugged.  A debugger attaches to the first target
that has a debugger URL.
-/

namespace BundleCoverage.Inspector

/-- The address at which an inspector lists its targets. -/
def listAddress (host : String) (port : UInt16) : String := s!"http://{host}:{port}/json/list"

/-- The debugger URL of the first target that has one, given the text that the inspector
lists its targets in.  There is no text if the inspector cannot be reached. -/
def debuggerUrl (host : String) (port : UInt16) (reply : Option String) : Except Error String :=
  match reply.map InspectorTarget.listOfText with
  | some (.ok targets) =>
    match targets.findSome? (·.debuggerUrl) with
    | some url => .ok url
    | none => .error (.inspector s!"no debugger target on port {port}")
  | some (.error _) | none => .error (.inspector (listAddress host port))

/-- The error of a debugger URL at which nothing answers. -/
def cannotAttach (url : String) : Error := .inspector s!"cannot attach to {url}"

end BundleCoverage.Inspector
