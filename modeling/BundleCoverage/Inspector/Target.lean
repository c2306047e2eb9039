import BundleCoverage.Error
import BundleCoverage.Json.Parse
import BundleCoverage.Json.Read

/-!
# Inspector targets

An inspector lists what can be debugged.  A target without a debugger URL is one that a
debugger is attached to already.
-/

namespace BundleCoverage

/-- Something an inspector can debug. -/
structure InspectorTarget where
  /-- Its identifier. -/
  id : String := ""
  /-- Its type; a server process has the type `node`. -/
  type : String := ""
  /-- Its title. -/
  title : String := ""
  /-- Where a debugger attaches. -/
  debuggerUrl : Option String := none
deriving Repr, DecidableEq, Inhabited

namespace InspectorTarget

open Json

/-- Reads a target. -/
def ofJson? (value : Json) : Option InspectorTarget := do
  match ← record? [["id"], ["type"], ["title"], ["webSocketDebuggerUrl"]] value with
  | [id, type, title, url] =>
    return ⟨← orElse "" toText? id, ← orElse "" toText? type, ← orElse "" toText? title,
      ← orElse none (toOption? toText?) url⟩
  | _ => none

/-- Reads a list of targets from its text. -/
def listOfText (text : String) : Except Error (List InspectorTarget) :=
  match (Json.parse? text).bind (toList? ofJson?) with
  | some targets => .ok targets
  | none => .error .json

end InspectorTarget

end BundleCoverage
