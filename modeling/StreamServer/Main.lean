/-
The program. It looks at the files its arguments are about, does what they
ask for on a picture of the machine, writes what has changed and reports.
This machine's sockets are out of its reach: an invocation that comes to need
one says so and fails.
-/
import StreamServer.CommandLine.Run

namespace StreamServer.CommandLine

/-- The locations above a location, from the root down, and the location itself. -/
def ancestry (l : Location) : List Location := (List.range l.length).map fun n => l.take (n + 1)

/-- The files an invocation looks at. -/
def Invocation.paths (homes : Config.Homes) : Invocation → List String
  | .serve o => [o.config.getD (Config.defaultPath homes)]
  | .init o => [o.path.getD (Config.defaultPath homes)]
  | .shutdown _ | .version | .help => []

/-- The real path of a location. -/
def realPath (l : Location) : String := "/" ++ "/".intercalate l

/-- What really stands at a location. -/
def look (l : Location) : IO (Option Node) := do
  let path := (← IO.currentDir) / realPath l
  if ← path.isDir then return some .folder
  if ← path.pathExists then return some (.file (← IO.FS.readBinFile path))
  return none

/-- A picture of what really stands along some paths. -/
def takePicture (start : Location) (paths : List String) : IO Disk := do
  let mut disk : Disk := ⟨[], start⟩
  for path in paths.map Path.ofText do
    for l in ancestry start ++ ancestry (disk.origin path ++ path.names) do
      if let some node ← look l then disk := disk.put l node
  return disk

/-- Makes the real files what they are in the picture. -/
def develop (before after : Disk) : IO Unit :=
  for (l, node) in after.nodes.reverse do
    if before.get? l ≠ some node then
      match node with
      | .folder => IO.FS.createDirAll (realPath l)
      | .file content => IO.FS.writeBinFile (realPath l) content

/-- Shows a report. -/
def Report.show (r : Report) : IO UInt32 := do
  IO.print r.output
  for line in r.complaint do IO.eprintln line
  return r.code.toUInt32

/-- Says that an invocation came to need a socket. -/
def lackSockets (purpose : String) : IO UInt32 := do
  IO.eprintln ("sockets are not available to " ++ purpose)
  return 1

/-- Shows how an invocation ended. -/
def Outcome.show : Outcome → IO UInt32
  | .finished r => r.show
  | .listening _ e => lackSockets ("listen on " ++ e.text)
  | .dialling c => lackSockets ("dial " ++ c.controlTarget)

end StreamServer.CommandLine

open StreamServer StreamServer.CommandLine in
/-- Does what the arguments ask for. -/
def main (args : List String) : IO UInt32 := do
  let home := (← IO.getEnv "HOME").getD ""
  let homes : Config.Homes := ⟨← IO.getEnv "XDG_CONFIG_HOME", home, "/"⟩
  let start := (Path.ofText (← IO.currentDir).toString).names
  let invocation := readInvocation args
  if let .ok (.shutdown _) := invocation then return ← lackSockets "reach a server"
  let paths := match invocation with
    | .ok i => i.paths homes
    | .error _ => []
  let disk ← takePicture start paths
  let (outcome, after) := run ⟨disk, { routed := false, freePort := 49152 }, homes⟩ args
  develop disk after.disk
  outcome.show
