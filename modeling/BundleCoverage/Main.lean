import BundleCoverage.CommandLine.Command
import BundleCoverage.CommandLine.Help

/-!
# The program

Copies the part of the file system that a command can need to a disk, performs the command
there, and then makes the changes of the disk on the file system.  Directories of other
packages and of version control are not copied.

The program has no connection to an inspector, so collecting the coverage of the server
ends with the warning that there is none.
-/

namespace BundleCoverage.Main

open CommandLine

/-- The directories that are not copied. -/
def passedOver : List String := ["node_modules", ".git"]

/-- The variables of the environment that the program reads. -/
def variableNames : List String :=
  ["NEXTCOV_CONFIG", "NEXTCOV_CDP_PORT", "NEXTCOV_BUILD_DIR", "NEXTCOV_OUTPUT_DIR", "NEXTCOV_LOG"]

/-- The environment of the program. -/
def environment : IO Environment :=
  variableNames.filterMapM fun name => do return (← IO.getEnv name).map (name, ·)

/-- The path of a place. -/
def pathOf (place : Place) : String := "/" ++ "/".intercalate place

/-- Copies what is at a place, with all below it. -/
partial def copyTree (d : Disk) (place : Place) : IO Disk := do
  let path ← IO.FS.realPath (pathOf place)
  if ← path.isDir then
    let mut d := d.set place .directory
    for item in ← path.readDir do
      unless passedOver.contains item.fileName do
        d ← copyTree d (place ++ [item.fileName])
    return d
  else if ← path.pathExists then
    return d.set place (.file (← IO.FS.readBinFile path).toList)
  else return d

/-- Copies what a path leads to, unless it is there already or cannot be read. -/
def copyPath (d : Disk) (path : String) : IO Disk := do
  let full := Path.join d.workingPath path
  let place := full.splitOn "/" |>.filter (· ≠ "")
  if (d.node? place).isSome then return d
  try
    let parents := (List.range place.length).map place.take
    copyTree (parents.foldl (fun d p => d.set p .directory) d) place
  catch _ => return d

/-- The disk that a command works on. -/
def diskFor (a : Arguments) (environment : Environment) : IO Disk := do
  let here := (toString (← IO.currentDir)).splitOn "/" |>.filter (· ≠ "")
  let parents := (List.range here.length).map here.take
  let start : Disk := { (default : Disk) with workingDirectory := here }
  let d ← copyTree (parents.foldl (fun d p => d.set p .directory) start) here
  let d ← match a.value? environment .config with
    | some file => copyPath d file
    | none => pure d
  match a.options environment d with
  | .error _ => return d
  | .ok o =>
    [o.projectRoot, o.buildDirectory, o.outputDirectory, o.cacheDirectory].foldlM copyPath d

/-- Makes the changes from one disk to another on the file system. -/
def applyChanges (before after : Disk) : IO Unit := do
  for (place, _) in before.nodes.toList.reverse do
    if (after.node? place).isNone then
      let path ← IO.FS.realPath (pathOf place)
      if ← path.isDir then IO.FS.removeDir path else IO.FS.removeFile path
  for (place, node) in after.nodes.toList do
    if before.node? place ≠ some node then
      match node with
      | .directory => IO.FS.createDirAll (pathOf place)
      | .file bytes => IO.FS.writeBinFile (pathOf place) ⟨bytes.toArray⟩

/-- The line of an event in the log. -/
def logLine (format : LogFormat) (e : Event) : String :=
  let level := e.level.name.toUpper
  match format with
  | .text => s!"{level} {e.message}"
  | .json => (Json.obj [("level", .str level), ("message", .str e.message)]).compact

/-- Performs a command and gives the exit code. -/
def performHere (a : Arguments) (environment : Environment) : IO UInt32 := do
  let d ← diskFor a environment
  let stdout ← IO.getStdout
  let (h, result) := perform a environment (← stdout.isTty) none default { disk := d }
  applyChanges d h.disk
  for e in shownEvents a environment h.events do
    IO.eprintln (logLine a.settings.logFormat e)
  stdout.putStr h.printed
  match result with
  | .ok () => return 0
  | .error f =>
    IO.eprintln s!"Error: {f.text}"
    return 1

end BundleCoverage.Main

open BundleCoverage BundleCoverage.CommandLine in
/-- Runs the program. -/
def main (arguments : List String) : IO UInt32 := do
  let environment ← BundleCoverage.Main.environment
  match Request.read environment arguments with
  | .perform a => BundleCoverage.Main.performHere a environment
  | .help =>
    IO.print help
    return 0
  | .version verb =>
    IO.println (programVersion verb)
    return 0
  | .usage =>
    IO.eprint help
    return 2
