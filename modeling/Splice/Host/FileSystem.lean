import Splice.Host.Fault
import Splice.Host.Path
/-!
# A file system

Directories and files under one root, each belonging to a file system of some
type. A path is resolved name by name from the root or from the working
directory, and every operation fails with the fault that Linux gives. The
content of a file is of a type `κ` that the operations do not look into.
-/

namespace Splice.Host

/-- Types of file systems. -/
inductive FsType where
  | disk
  | tmpfs
  | proc
  | bpf
  | cgroup2
deriving DecidableEq, Inhabited, Repr

namespace FsType

/-- The number by which the system tells the type. -/
def magic : FsType → Nat
  | .disk => 0xef53
  | .tmpfs => 0x01021994
  | .proc => 0x9fa0
  | .bpf => 0xcafe4a11
  | .cgroup2 => 0x63677270

/-- The type as a mount request names it. -/
def word : FsType → String
  | .disk => "ext4"
  | .tmpfs => "tmpfs"
  | .proc => "proc"
  | .bpf => "bpf"
  | .cgroup2 => "cgroup2"

/-- The type a mount request names. -/
def ofWord? (s : String) : Option FsType := [disk, tmpfs, proc, bpf, cgroup2].find? (·.word == s)

end FsType

/-- What stands at a location. -/
inductive Node (κ : Type) where
  | directory (fs : FsType)
  | file (fs : FsType) (content : κ)
  /-- Neither a directory nor a regular file; nothing can be read from it. -/
  | device (fs : FsType)
deriving Inhabited, Repr

namespace Node

variable {κ : Type}

def fsType : Node κ → FsType
  | .directory fs => fs
  | .file fs _ => fs
  | .device fs => fs

def isDirectory : Node κ → Bool
  | .directory _ => true
  | _ => false

end Node

/-- The names that lead from the root to a place. -/
abbrev Location := List String

/-- Why what stands somewhere cannot be removed: a fault other than that nothing
stands there. -/
structure Hold where
  fault : Fault
  present : fault ≠ .notFound
deriving DecidableEq, Repr

/-- Directories are not removed as files are. -/
def Hold.directory : Hold := ⟨.isDirectory, by decide⟩

structure FileSystem (κ : Type) where
  /-- The working directory. -/
  cwd : Location
  /-- What stands where; no location is named twice. -/
  nodes : List (Location × Node κ)
  /-- Places that the caller may not take away: permissions, flags, a read-only
  mount. -/
  held : List (Location × Hold)

namespace FileSystem

variable {κ : Type}

/-- What stands at a location. -/
def node? (s : FileSystem κ) (loc : Location) : Option (Node κ) := (s.nodes.find? (·.1 == loc)).map (·.2)

/-- Why what stands at a location cannot be removed as a file, if it cannot. What
the caller may not do is looked at first. -/
def hold? (s : FileSystem κ) (loc : Location) : Option Hold :=
  (s.node? loc).bind fun n =>
    match s.held.find? (·.1 == loc) with
    | some (_, hold) => some hold
    | none => if n.isDirectory then some .directory else none

/-- Takes away what stands at a location. -/
def erase (s : FileSystem κ) (loc : Location) : FileSystem κ :=
  { s with nodes := s.nodes.filter (·.1 != loc) }

/-- Puts a node at a location, in place of what stood there. -/
def put (s : FileSystem κ) (loc : Location) (n : Node κ) : FileSystem κ :=
  { s with nodes := (s.erase loc).nodes ++ [(loc, n)] }

@[simp] theorem node?_erase (s : FileSystem κ) (loc other : Location) :
    (s.erase loc).node? other = if loc = other then none else s.node? other := by
  obtain ⟨cwd, nodes, held⟩ := s
  simp only [node?, erase]
  split
  · rename_i h
    subst h
    simp [List.find?_eq_none]
  · rename_i h
    congr 1
    induction nodes with
    | nil => rfl
    | cons n nodes ih =>
      by_cases hn : n.1 = loc
      · simp [hn, ih, h]
      · simp [hn, List.find?_cons, ih]

@[simp] theorem hold?_erase (s : FileSystem κ) (loc other : Location) :
    (s.erase loc).hold? other = if loc = other then none else s.hold? other := by
  rw [hold?, node?_erase]
  split <;> rfl

@[simp] theorem node?_put (s : FileSystem κ) (loc other : Location) (n : Node κ) :
    (s.put loc n).node? other = if loc = other then some n else s.node? other := by
  have h := s.node?_erase loc other
  simp only [node?, put, List.find?_append] at h ⊢
  split
  · rename_i hl
    subst hl
    simp only [if_true, Option.map_eq_none_iff] at h
    simp [h]
  · rename_i hl
    rw [if_neg hl] at h
    simpa [List.find?_cons, hl] using h

/-! ## Resolving paths -/

/-- The place that one name leads to from a directory. A directory of BPF
objects takes no name with a dot in it. -/
def enter (s : FileSystem κ) (loc : Location) (name : String) : Except Fault Location :=
  match s.node? loc with
  | some (.directory fs) =>
    if name = "." then .ok loc
    else if name = ".." then .ok loc.dropLast
    else if Path.maxName < name.utf8ByteSize then .error .nameTooLong
    else if fs = .bpf ∧ '.' ∈ name.toList then .error .notPermitted
    else if (s.node? (loc ++ [name])).isSome then .ok (loc ++ [name])
    else .error .notFound
  | _ => .error .notDirectory

/-- Where the names of a path start. -/
def start (s : FileSystem κ) (path : String) : Location := if Path.isAbsolute path then [] else s.cwd

/-- Refuses a path the system does not take. -/
def checkPath (path : String) : Except Fault Unit :=
  if '\x00' ∈ path.toList then .error .zeroInPath
  else if path = "" then .error .notFound
  else if Path.maxPath < path.utf8ByteSize then .error .nameTooLong
  else .ok ()

/-- The place a path leads to. -/
def resolve (s : FileSystem κ) (path : String) : Except Fault Location := do
  checkPath path
  let names := if Path.endsInSlash path then Path.names path ++ ["."] else Path.names path
  names.foldlM s.enter (s.start path)

/-- The location is in the directory of the processes, which takes nothing new. -/
def isProcess (s : FileSystem κ) (loc : Location) : Bool :=
  match s.node? loc.dropLast with
  | some (.directory .proc) => true
  | _ => false

/-- The place that the last name of a path would have, where nothing may stand
yet. -/
def vacancy (s : FileSystem κ) (path : String) : Except Fault Location := do
  checkPath path
  match (Path.names path).getLast? with
  | none => .error .alreadyExists
  | some name =>
    let above ← (Path.names path).dropLast.foldlM s.enter (s.start path)
    match s.enter above name with
    | .ok _ => .error .alreadyExists
    | .error .notFound =>
      if s.isProcess (above ++ [name]) then .error .notFound else .ok (above ++ [name])
    | .error f => .error f

/-- What a path leads to. -/
def stat (s : FileSystem κ) (path : String) : Except Fault (Node κ) := do
  match s.node? (← s.resolve path) with
  | some n => .ok n
  | none => .error .notFound

/-- Something stands where the path leads. -/
def present (s : FileSystem κ) (path : String) : Bool := (s.stat path).isOk

def isDirectory (s : FileSystem κ) (path : String) : Bool :=
  match s.stat path with
  | .ok (.directory _) => true
  | _ => false

def isFile (s : FileSystem κ) (path : String) : Bool :=
  match s.stat path with
  | .ok (.file _ _) => true
  | _ => false

/-- A C string cannot hold a zero octet; the fault tells where the first is. -/
def asCString (path : String) : Except Fault Unit :=
  match path.toList.span (· != '\x00') with
  | (_, []) => .ok ()
  | (before, _) => .error (.zeroAt (String.ofList before).utf8ByteSize)

/-- The type of the file system a path leads to. -/
def fsType (s : FileSystem κ) (path : String) : Except Fault FsType := do
  asCString path
  return (← s.stat path).fsType

/-- The content of a file; none for a device. -/
def read (s : FileSystem κ) (path : String) : Except Fault (Option κ) := do
  match ← s.stat path with
  | .directory _ => .error .isDirectory
  | .file _ content => .ok (some content)
  | .device _ => .ok none

/-- The paths below a location, relative to it, those of directories with a
slash at the end; sorted. -/
def below (s : FileSystem κ) (loc : Location) : List String :=
  let found := s.nodes.filterMap fun (inner, n) =>
    if loc.isPrefixOf inner ∧ inner ≠ loc then
      some ("/".intercalate (inner.drop loc.length) ++ if n.isDirectory then "/" else "")
    else none
  found.mergeSort fun a b => !decide (b < a)

/-- The names in the directory a path leads to, sorted. -/
def entries (s : FileSystem κ) (path : String) : List String :=
  match s.resolve path with
  | .error _ => []
  | .ok loc =>
    let found := s.nodes.filterMap fun (inner, _) =>
      match inner.getLast? with
      | some name => if inner.dropLast = loc then some name else none
      | none => none
    found.mergeSort fun a b => !decide (b < a)

/-! ## Changes -/

/-- Makes a directory, of the type of the one above it. -/
def makeDirectory (s : FileSystem κ) (path : String) : Except Fault (FileSystem κ) := do
  let loc ← s.vacancy path
  match s.node? loc.dropLast with
  | some above => .ok (s.put loc (.directory above.fsType))
  | none => .error .notFound

/-- Makes the directory of `path`, and before it, where one is missing, those of
the paths above. -/
def makeDirectories (s : FileSystem κ) (path : String) (above : List String) :
    FileSystem κ × Except Fault Unit :=
  if path = "" then (s, .ok ())
  else
    match s.makeDirectory path with
    | .ok s => (s, .ok ())
    | .error .notFound =>
      match above with
      | [] => (s, .error .notFound)
      | next :: above =>
        match s.makeDirectories next above with
        | (s, .error f) => (s, .error f)
        | (s, .ok ()) =>
          match s.makeDirectory path with
          | .ok s => (s, .ok ())
          | .error f => (s, if s.isDirectory path then .ok () else .error f)
    | .error f => (s, if s.isDirectory path then .ok () else .error f)

/-- Makes a directory and all missing ones above it. One that is there already
will do. -/
def makePath (s : FileSystem κ) (path : String) : FileSystem κ × Except Fault Unit :=
  s.makeDirectories path (Path.parents path)

/-- Writes a file, in place of one that is there. -/
def write (s : FileSystem κ) (path : String) (content : κ) : Except Fault (FileSystem κ) :=
  match s.resolve path with
  | .ok loc =>
    match s.node? loc with
    | some (.file fs _) => .ok (s.put loc (.file fs content))
    | some (.directory _) => .error .isDirectory
    | _ => .ok s
  | .error .notFound => do
    let loc ← s.vacancy path
    match s.node? loc.dropLast with
    | some above => .ok (s.put loc (.file above.fsType content))
    | none => .error .notFound
  | .error f => .error f

/-- Removes a file that nothing holds. -/
def remove (s : FileSystem κ) (path : String) : Except Fault (FileSystem κ) := do
  let loc ← s.resolve path
  match s.hold? loc with
  | some hold => .error hold.fault
  | none => .ok (s.erase loc)

/-- Mounts a file system on a directory, which hides what stands below it. -/
def mount (s : FileSystem κ) (path : String) (fs : FsType) : Except Fault (FileSystem κ) := do
  asCString path
  let loc ← s.resolve path
  match s.node? loc with
  | some (.directory _) =>
    .ok { s with
      nodes := s.nodes.filter (fun (inner, _) => !loc.isPrefixOf inner) ++ [(loc, .directory fs)]
      held := s.held.filter fun (inner, _) => !loc.isPrefixOf inner }
  | _ => .error .notDirectory

/-! ## A plain host -/

/-- The directories every host has, a device to read nothing from, a file of
`plain` content, and a working directory with nothing in it. -/
def standard (plain : κ) : FileSystem κ :=
  { cwd := ["srv"]
    nodes :=
      [([], .directory .disk), (["dev"], .directory .tmpfs), (["dev", "null"], .device .tmpfs),
       (["etc"], .directory .disk), (["etc", "passwd"], .file .disk plain), (["home"], .directory .disk),
       (["opt"], .directory .disk), (["proc"], .directory .proc), (["root"], .directory .disk),
       (["run"], .directory .tmpfs),
       (["srv"], .directory .disk), (["sys"], .directory .tmpfs), (["sys", "fs"], .directory .tmpfs),
       (["tmp"], .directory .disk), (["usr"], .directory .disk), (["var"], .directory .disk),
       (["var", "tmp"], .directory .disk)]
    held := [] }

end FileSystem

end Splice.Host
