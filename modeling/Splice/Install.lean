import Splice.Log.Record
import Splice.Pins
import Splice.Plan
/-!
# Installing the kernel programs

`install` prepares the host, loads the object file and attaches each program;
when a step fails it detaches what it had attached and leaves the maps pinned.
`close` detaches the programs and then removes the pins. Both are written over
an arbitrary system, so that nothing is assumed about which steps succeed.
-/

namespace Splice

open Host

/-- What is installed. -/
structure Installation where
  pinPath : String
  interfaces : List String
  /-- The attached programs, in the order they were attached. -/
  links : List Link
deriving DecidableEq, Inhabited, Repr

namespace Install

variable {σ : Type}

/-- An installation on its way: the host, what was reported, and the programs
attached so far. -/
structure Progress (σ : Type) where
  host : σ
  reports : List Log.Report
  links : List Link

abbrev Setup (σ : Type) := ExceptT BpfError (StateM (Progress σ))

/-- Asks the host. -/
def ask {α : Type} (request : StateM σ α) : Setup σ α := fun p =>
  let (a, host) := request p.host
  (.ok a, { p with host })

/-- Asks the host for something about a path. -/
def askPath {α : Type} (action : PathAction) (path : String) (request : StateM σ (Except Fault α)) :
    Setup σ α := do
  match ← ask request with
  | .ok a => return a
  | .error fault => throw (.path action path fault)

def report (origin : Log.Origin) (level : Log.Level) (message : String) (fields : List (String × String)) :
    Setup σ Unit :=
  modify fun p => { p with reports := p.reports ++ [⟨origin, level, message, fields⟩] }

/-! ## Preparing the host -/

/-- Lifts the limit on locked memory. -/
def raiseMemlock (sys : System σ) : Setup σ Unit := do
  match ← ask sys.raiseMemlock with
  | .ok () => return ()
  | .error fault => throw (.memlock fault)

/-- Makes a directory where nothing stands. -/
def makeMissing (sys : System σ) (root : String) : Setup σ Unit := do
  if !(← ask (sys.present root)) then askPath .create root (sys.makePath root)

/-- Mounts a file system for BPF objects on a directory of any other. -/
def mountMissing (sys : System σ) (root : String) : Setup σ Unit := do
  if (← askPath .statfs root (sys.magic root)) != FsType.bpf.magic then
    askPath .mountBpf root (sys.mountBpf root)
    report .host .info "mounted bpffs" [("root", root)]

/-- Sees to it that `root` is a file system for BPF objects. -/
def ensureBpf (sys : System σ) (root : String) : Setup σ Unit := do
  makeMissing sys root
  mountMissing sys root

/-- The root of the second version of the cgroup hierarchy: `base` itself, or the
directory in it that is meant for that version. -/
def unifiedRoot (base : String) (unified : Bool) : String :=
  if unified then base else Path.join base "unified"

/-- Finds the root of the cgroup hierarchy. -/
def detectCgroup (sys : System σ) : Setup σ String := do
  match ← ask (sys.magic cgroupRoot) with
  | .ok magic => return unifiedRoot cgroupRoot (magic == FsType.cgroup2.magic)
  | .error fault =>
    report .host .warn "cannot stat cgroup root, assuming hybrid layout"
      [("err", fault.message), ("base", cgroupRoot)]
    return unifiedRoot cgroupRoot false

/-! ## Attaching -/

/-- The program of a name, if it is of the kind its hook takes. -/
def program (loaded : Loaded) (name : String) (kind : ProgramKind) : Setup σ ProgramDef :=
  match loaded.image.program? name with
  | none => throw (.programMissing name)
  | some p => if p.kind = kind then return p else throw (.programKind name)

/-- Gives a program to the kernel. -/
def load (sys : System σ) (p : ProgramDef) : Setup σ Nat := do
  match ← ask (sys.loadProgram p) with
  | some number => return number
  | none => throw (.programRefused p.name)

/-- Attaches a loaded program. -/
def attach (sys : System σ) (name : String) (l : Link) : Setup σ Unit := do
  if ← ask (sys.attach l) then modify fun p => { p with links := p.links ++ [l] }
  else throw (.notAttached name)

/-- The number of the redirect map, which must be a map of sockets keyed by
tuples. -/
def redirectMap (loaded : Loaded) : Setup σ Nat :=
  let name := Kernel.redirectMap.name
  match loaded.image.map? name, loaded.number? name with
  | some d, some number =>
    if d.kind = Kernel.redirectMap.kind ∧ d.keySize = Kernel.redirectMap.keySize ∧
        d.valueSize = Kernel.redirectMap.valueSize then return number
    else throw .mapUnfit
  | _, _ => throw (.mapMissing name)

/-- Attaches the message program to the redirect map, through a handle of its
own on the map. -/
def attachRedirect (sys : System σ) (loaded : Loaded) (pins : String) : Setup σ Unit := do
  let name := Kernel.redirectProgram
  let map ← redirectMap loaded
  askPath .shareMap (Path.join pins Kernel.redirectMap.name) (sys.shareMap map)
  let number ← load sys (← program loaded name .message)
  attach sys name ⟨number, .map map⟩
  report .installer .info "sk_msg redirect attached"
    [("program", Log.quoted name), ("map", Log.quoted Kernel.redirectMap.name)]

/-- Attaches the tracker to a cgroup. -/
def attachTracker (sys : System σ) (loaded : Loaded) (cgroup : String) : Setup σ Unit := do
  let name := Kernel.trackerProgram
  let place ← askPath .openCgroup cgroup (sys.openFile cgroup)
  let number ← load sys (← program loaded name .sockOps)
  attach sys name ⟨number, .cgroup place⟩
  report .installer .info "sockops tracker attached" [("program", Log.quoted name), ("cgroup", cgroup)]

/-- The program attached to the first interface among some links. -/
def classifierOf? (links : List Link) : Option Nat :=
  links.findSome? fun l =>
    match l.hook with
    | .interface _ => some l.program
    | _ => none

/-- Adds the queueing discipline that a classifier needs. A system where it is
there already adds none, which is fine. -/
def addQdisc (sys : System σ) (interface : String) : Setup σ Unit := do
  if !(← ask (sys.addQdisc interface)) then
    report .installer .debug "clsact qdisc not added" [("iface", Log.quoted interface)]

/-- Gives the classifier to the kernel while no interface has it: the next ones
share the program of the first. -/
def loadClassifier (sys : System σ) (p : ProgramDef) : Setup σ Nat := do
  match classifierOf? (← get).links with
  | some number => return number
  | none => load sys p

/-- Attaches the classifier to an interface. -/
def attachClassifier (sys : System σ) (loaded : Loaded) (interface : String) : Setup σ Unit := do
  let name := Kernel.classifierProgram
  addQdisc sys interface
  let number ← loadClassifier sys (← program loaded name .classifier)
  attach sys name ⟨number, .interface interface⟩
  report .installer .info "egress disable classifier attached"
    [("program", Log.quoted name), ("iface", Log.quoted interface)]

/-! ## Installations -/

/-- Loads the object file of a plan. -/
def loadObject (sys : System σ) (plan : Plan) : Setup σ Loaded := do
  match ← ask (sys.loadObject plan.object plan.pinPath) with
  | some loaded =>
    report .installer .info "BPF object loaded" [("object", plan.object), ("pin_path", plan.pinPath)]
    return loaded
  | none => throw .notLoaded

/-- The cgroup of a plan, or the root of the hierarchy if it names none. -/
def chooseCgroup (sys : System σ) (plan : Plan) : Setup σ String :=
  match plan.cgroupPath with
  | some cgroup => return cgroup
  | none => detectCgroup sys

/-- All steps of an installation. -/
def steps (sys : System σ) (plan : Plan) : Setup σ Unit := do
  raiseMemlock sys
  ensureBpf sys bpfRoot
  askPath .createPinDirectory plan.pinPath (sys.makePath plan.pinPath)
  let loaded ← loadObject sys plan
  attachRedirect sys loaded plan.pinPath
  attachTracker sys loaded (← chooseCgroup sys plan)
  plan.interfaces.forM (attachClassifier sys loaded)

/-- Detaches programs in their order. -/
def detachAll (sys : System σ) : List Link → StateM σ Unit
  | [] => return ()
  | l :: links => do sys.detach l; detachAll sys links

/-- What a request that reports came to: the host afterwards, the reports, and
the answer. -/
structure Result (σ α : Type) where
  host : σ
  reports : List Log.Report
  answer : Except BpfError α

/-- Runs steps that attach nothing. -/
def run {α : Type} (steps : Setup σ α) (host : σ) : Result σ α :=
  let (answer, p) := steps.run ⟨host, [], []⟩
  ⟨p.host, p.reports, answer⟩

/-- Installs the kernel programs. When a step fails, what was attached is
detached. -/
def install (sys : System σ) (plan : Plan) (host : σ) : Result σ Installation :=
  match (steps sys plan).run ⟨host, [], []⟩ with
  | (.ok (), p) => ⟨p.host, p.reports, .ok ⟨plan.pinPath, plan.interfaces, p.links⟩⟩
  | (.error e, p) => ⟨(detachAll sys p.links p.host).2, p.reports, .error e⟩

/-- Detaches the programs of an installation and leaves its maps pinned. -/
def release (sys : System σ) (i : Installation) (host : σ) : σ := (detachAll sys i.links host).2

/-- Detaches the programs of an installation, then removes its pins. -/
def close (sys : System σ) (i : Installation) (host : σ) : Result σ Unit :=
  match Pins.unpin sys.remove i.pinPath (release sys i host) with
  | (.ok removed, host) =>
    ⟨host, [⟨.installer, .info, "programs detached, maps unpinned",
      [("pin_path", i.pinPath), ("removed", Decimal.text removed)]⟩], .ok ()⟩
  | (.error e, host) => ⟨host, [], .error e⟩

end Install

end Splice
