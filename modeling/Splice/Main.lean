import Splice.Agent
/-!
# The program

Reads what the command line names from the host's file system, lets the agent
work on it, and writes its output. The kernel's interface for programs and maps
is not reached from here, so the machine is one that may not lock memory.
-/

namespace Splice.Main

open Host

/-- Adds to `files` what stands at a path of the host. -/
def copy (files : FileSystem Content) (path : String) : IO (FileSystem Content) := do
  try
    let place ← IO.FS.realPath path
    if ← place.isDir then return (files.makePath path).1
    let data ← IO.FS.readBinFile path
    let above := (files.makePath ((Path.parents path).headD "")).1
    return (above.write path (.bytes data)).toOption.getD files
  catch _ => return files

/-- The paths a command looks at. -/
def named : Command → List String
  | .run config => [config]
  | .debug _ dir => [dir]
  | .entries dir => [dir]

/-- The paths a plan looks at. -/
def planned (p : Plan) : List String := p.object :: p.cgroupPath.toList

/-- The paths named in the configuration file at `path`. -/
def configured (files : FileSystem Content) (path : String) : List String :=
  match Agent.readText (.fresh files true) path with
  | .error _ => []
  | .ok text => (((Toml.read text).bind Config.ofToml?).map fun c => planned c.plan).getD []

/-- The machine with all that a command looks at. -/
def snapshot (c : Command) : IO Machine := do
  let cwd ← IO.currentDir
  let files : FileSystem Content := { plainFiles with cwd := Path.names cwd.toString }
  let files := (files.makePath cwd.toString).1
  let files ← (named c).foldlM copy files
  let files ← match c with
    | .run config => (configured files config).foldlM copy files
    | _ => pure files
  return .fresh files true

end Splice.Main

/-- Does what the command line says and exits with its code. -/
def main (args : List String) : IO UInt32 := do
  let machine ← match Splice.CommandLine.parse? args with
    | some (.command c) => Splice.Main.snapshot c
    | _ => pure (.fresh Splice.Host.plainFiles true)
  let outcome := Splice.Agent.execute machine args (← IO.getEnv "RUST_LOG")
  for line in outcome.output do IO.println line
  return UInt32.ofNat outcome.exit
