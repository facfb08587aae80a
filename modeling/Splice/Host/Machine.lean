import Splice.Host.BpfMap
import Splice.Host.System
/-!
# A machine

A file system, the maps of the kernel, the programs attached to it, and what a
process may ask of it. `Machine.system` answers an installer's requests the way
Linux does.
-/

namespace Splice.Host

/-- What a file holds. -/
inductive Content where
  | bytes (data : ByteArray)
  | object (image : Image)
  /-- A map of the kernel, by its number. -/
  | pin (number : Nat)
deriving Inhabited

/-- The files of a host that nothing was done to. -/
def plainFiles : FileSystem Content := .standard (.bytes .empty)

structure Machine where
  files : FileSystem Content
  /-- The kernel's maps; each is known by its position. -/
  maps : List BpfMap
  /-- How many programs were loaded so far. -/
  loads : Nat
  /-- The attached programs, the earliest first. -/
  links : List Link
  interfaces : List String
  /-- The interfaces with the queueing discipline for classifiers. -/
  qdiscs : List String
  /-- The limit on locked memory cannot be raised. -/
  memlockDenied : Bool

namespace Machine

/-- A machine with a loopback interface, nothing loaded, and these files. -/
def fresh (files : FileSystem Content) (memlockDenied : Bool) : Machine :=
  { files, maps := [], loads := 0, links := [], interfaces := ["lo"], qdiscs := [], memlockDenied }

/-- Applies a change of the files that may fail. -/
def onFiles (change : FileSystem Content → Except Fault (FileSystem Content)) :
    StateM Machine (Except Fault Unit) := fun m =>
  match change m.files with
  | .ok files => (.ok (), { m with files })
  | .error f => (.error f, m)

/-! ## Maps -/

/-- The map pinned at a path. -/
def pinned? (m : Machine) (path : String) : Option Nat :=
  match m.files.read path with
  | .ok (some (.pin number)) => some number
  | _ => none

/-- Makes a map and pins it at a path, which must be new and in a file system
for BPF objects. -/
def pinNew (m : Machine) (d : Kernel.MapDef) (path : String) : Option (Machine × Nat) := do
  let map ← BpfMap.create? d
  let loc ← (m.files.vacancy path).toOption
  let .directory .bpf ← m.files.node? loc.dropLast | none
  return ({ m with files := m.files.put loc (.file .bpf (.pin m.maps.length)), maps := m.maps ++ [map] },
    m.maps.length)

/-- The map of a declaration: a pinned one is the map that is pinned under its
name already, whatever its sizes, or else a new one. -/
def mapOf (m : Machine) (pins : String) (d : Kernel.MapDef) : Option (Machine × Nat) :=
  if d.pinning = 0 then
    (BpfMap.create? d).map fun map => ({ m with maps := m.maps ++ [map] }, m.maps.length)
  else
    let path := Path.join pins d.name
    match m.pinned? path with
    | some number => some (m, number)
    | none => m.pinNew d path

/-- The maps of some declarations, each after those before it. What was made
stays when a later one fails. -/
def mapsOf (pins : String) : List Kernel.MapDef → Machine → Option (List (String × Nat)) × Machine
  | [], m => (some [], m)
  | d :: ds, m =>
    match m.mapOf pins d with
    | none => (none, m)
    | some (m, number) =>
      match mapsOf pins ds m with
      | (none, m) => (none, m)
      | (some numbers, m) => (some ((d.name, number) :: numbers), m)

/-- Makes the maps of an object file. -/
def loadObject (object pins : String) : StateM Machine (Option Loaded) := fun m =>
  match m.files.read object with
  | .ok (some (.object image)) =>
    let (numbers, m) := mapsOf pins image.maps m
    (numbers.map (⟨image, ·⟩), m)
  | _ => (none, m)

/-! ## Programs -/

/-- The verifier decides; a program that is taken gets the next number. -/
def loadProgram (p : ProgramDef) : StateM Machine (Option Nat) := fun m =>
  if p.sound then (some m.loads, { m with loads := m.loads + 1 }) else (none, m)

/-- The hook takes programs. -/
def accepts (m : Machine) : Hook → Bool
  | .map number =>
    match m.maps[number]? with
    | some map => map.kind == Kernel.sockHashKind
    | none => false
  | .cgroup place =>
    match m.files.node? place with
    | some (.directory .cgroup2) => true
    | _ => false
  | .interface name => m.interfaces.contains name

/-- The attached programs that are still there once a program is attached to a
hook: a map of sockets has room for one, the other hooks for any number. -/
def beside (m : Machine) : Hook → List Link
  | .map number => m.links.filter (·.hook != .map number)
  | _ => m.links

/-- Attaches a program. No hook takes one program twice. -/
def attach (l : Link) : StateM Machine Bool := fun m =>
  if m.accepts l.hook ∧ l ∉ m.links then (true, { m with links := m.beside l.hook ++ [l] }) else (false, m)

def detach (l : Link) : StateM Machine Unit := fun m => ((), { m with links := m.links.filter (· != l) })

/-- How many programs are attached to a hook. -/
def attached (m : Machine) (h : Hook) : Nat := m.links.countP (·.hook == h)

/-- How many programs are attached to the cgroup a path leads to. -/
def attachedAt (m : Machine) (path : String) : Nat :=
  match m.files.resolve path with
  | .ok place => m.attached (.cgroup place)
  | .error _ => 0

/-- Adds the queueing discipline to an interface that is there and has none. -/
def addQdisc (name : String) : StateM Machine Bool := fun m =>
  if name ∈ m.interfaces ∧ name ∉ m.qdiscs then (true, { m with qdiscs := m.qdiscs ++ [name] })
  else (false, m)

/-! ## The machine as a system -/

def raiseMemlock : StateM Machine (Except Fault Unit) := fun m =>
  (if m.memlockDenied then .error .notPermitted else .ok (), m)

def makePath (path : String) : StateM Machine (Except Fault Unit) := fun m =>
  let (files, r) := m.files.makePath path
  (r, { m with files })

/-- Opens a file or directory; a pinned map cannot be opened as a file. -/
def openFile (path : String) : StateM Machine (Except Fault Location) := fun m =>
  (if (m.pinned? path).isSome then .error .inputOutput else m.files.resolve path, m)

/-- The machine's answers to an installer. -/
def system : System Machine where
  raiseMemlock := raiseMemlock
  present path := fun m => (m.files.present path, m)
  makePath := makePath
  magic path := fun m => ((m.files.fsType path).map FsType.magic, m)
  mountBpf path := onFiles (·.mount path .bpf)
  loadObject := loadObject
  shareMap _ := fun m => (.ok (), m)
  loadProgram := loadProgram
  openFile := openFile
  addQdisc := addQdisc
  attach := attach
  detach := detach
  remove path := onFiles (·.remove path)

end Machine

end Splice.Host
