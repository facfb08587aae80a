import Splice.Kernel.Maps
/-!
# Object files

An object file declares maps and programs. A program's section tells its kind;
whether the kernel lets it run is decided when it is loaded.
-/

namespace Splice.Host

/-- Kinds of programs. -/
inductive ProgramKind where
  /-- Called at the life events of sockets. -/
  | sockOps
  /-- Called for each message sent on a socket of a map. -/
  | message
  /-- Called for each frame of an interface. -/
  | classifier
  /-- A kind that none of the hooks here takes. -/
  | foreign
deriving DecidableEq, Inhabited, Repr

/-- Sections of programs of the foreign kinds. -/
def foreignParts : List String :=
  ["kprobe", "kretprobe", "uprobe", "uretprobe", "tracepoint", "tp", "tp_btf", "raw_tp", "raw_tracepoint", "xdp",
   "socket", "perf_event", "lirc_mode2", "lsm", "fentry", "fexit", "extension", "sk_lookup", "cgroup_skb"]

/-- The kind of the programs in a section, whose name up to the first slash tells
it. -/
def ProgramKind.ofSection? (part : String) : Option ProgramKind :=
  match part.splitOn "/" with
  | "sockops" :: _ => some .sockOps
  | "sk_msg" :: _ => some .message
  | "classifier" :: _ => some .classifier
  | part :: _ => if part ∈ foreignParts then some .foreign else none
  | [] => none

structure ProgramDef where
  name : String
  kind : ProgramKind
  /-- The kernel's verifier accepts it. -/
  sound : Bool
deriving DecidableEq, Inhabited, Repr

/-- What an object file declares. -/
structure Image where
  maps : List Kernel.MapDef
  programs : List ProgramDef
deriving DecidableEq, Inhabited, Repr

/-- A program as an object file spells it: a name, a section, and whether the
verifier accepts it. -/
def ProgramDef.ofSection? (name part : String) (sound : Bool) : Option ProgramDef :=
  (ProgramKind.ofSection? part).map fun kind => ⟨name, kind, sound⟩

namespace Image

/-- The declarations of an object file, if its programs' kinds are known and each
map is either pinned under its name or not pinned. -/
def of? (maps : List Kernel.MapDef) (programs : List (Option ProgramDef)) : Option Image :=
  if maps.all (·.pinning ≤ 1) then (programs.mapM id).map (⟨maps, ·⟩) else none

def map? (i : Image) (name : String) : Option Kernel.MapDef := i.maps.find? (·.name == name)

def program? (i : Image) (name : String) : Option ProgramDef := i.programs.find? (·.name == name)

end Image

/-- The number each map of a loaded object file has in the kernel. -/
structure Loaded where
  image : Image
  numbers : List (String × Nat)
deriving DecidableEq, Inhabited, Repr

def Loaded.number? (l : Loaded) (name : String) : Option Nat :=
  (l.numbers.find? (·.1 == name)).map (·.2)

end Splice.Host
