import Splice.Host.Fault
/-!
# Errors on the way to the kernel

Why an installation, or a look at its maps, did not succeed.
-/

namespace Splice

/-- What was to be done to a path. -/
inductive PathAction where
  | create
  | statfs
  | mountBpf
  | createPinDirectory
  | shareMap
  | openCgroup
  | unpin
deriving DecidableEq, Inhabited, Repr

/-- The action as a message names it. -/
def PathAction.text : PathAction → String
  | .create => "create"
  | .statfs => "statfs"
  | .mountBpf => "mount bpffs on"
  | .createPinDirectory => "create pin directory"
  | .shareMap => "dup sockhash fd of"
  | .openCgroup => "open cgroup"
  | .unpin => "unpin"

inductive BpfError where
  /-- The object file was not loaded. -/
  | notLoaded
  | programMissing (name : String)
  | mapMissing (name : String)
  /-- The program is of another kind than its hook takes. -/
  | programKind (name : String)
  /-- The kernel's verifier refused the program. -/
  | programRefused (name : String)
  | notAttached (name : String)
  /-- A map of the wrong sizes, or one that did not answer. -/
  | mapUnfit
  | path (action : PathAction) (place : String) (fault : Host.Fault)
  | memlock (fault : Host.Fault)
deriving DecidableEq, Inhabited, Repr

namespace BpfError

def message : BpfError → String
  | .notLoaded => "failed to load BPF object"
  | .programMissing name => "program '" ++ name ++ "' not found in BPF object"
  | .mapMissing name => "map '" ++ name ++ "' not found in BPF object"
  | .programKind name => "program '" ++ name ++ "' has the wrong type"
  | .programRefused name => "failed to load program '" ++ name ++ "' into kernel"
  | .notAttached name => "failed to attach program '" ++ name ++ "'"
  | .mapUnfit => "map error"
  | .path action place fault => action.text ++ " " ++ place ++ ": " ++ fault.message
  | .memlock fault => "failed to raise RLIMIT_MEMLOCK: " ++ fault.message

end BpfError

end Splice
