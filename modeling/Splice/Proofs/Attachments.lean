import Mathlib.Control.Monad.Basic
import Splice.Host.Machine
import Splice.Proofs.Transcript
/-!
# All programs attached, or none

What an installation attached and loaded is read off its transcript. Every step
`Adds` to the transcript, to the links exactly what it attached, and detaches
nothing; so a failed installation detaches all it attached, and a complete one has
the redirect program, the tracker and a classifier for each interface, loaded once
for all of them. Closing detaches them all before it removes a pin.
-/

namespace Splice.Install

open Host

variable {σ α β : Type}

/-! ## Reading a transcript -/

section Transcript

/-- The programs that were attached, in order. -/
def attached (js : List Exchange) : List Link :=
  js.filterMap fun
    | .attach l true => some l
    | _ => none

/-- The programs that were detached, in order. -/
def detached (js : List Exchange) : List Link :=
  js.filterMap fun
    | .detach l => some l
    | _ => none

/-- The programs that were given to the kernel, and the numbers it gave them. -/
def loads (js : List Exchange) : List (ProgramDef × Option Nat) :=
  js.filterMap fun
    | .loadProgram p answer => some (p, answer)
    | _ => none

/-- What an exchange leaves attached. Detaching never fails. -/
def stand (links : List Link) : Exchange → List Link
  | .attach l true => links ++ [l]
  | .detach l => links.erase l
  | _ => links

/-- The programs that are attached after some exchanges. -/
def standing (js : List Exchange) : List Link := js.foldl stand []

variable {js ks : List Exchange} {links : List Link}

theorem attached_append : attached (js ++ ks) = attached js ++ attached ks := List.filterMap_append

theorem detached_append : detached (js ++ ks) = detached js ++ detached ks := List.filterMap_append

theorem loads_append : loads (js ++ ks) = loads js ++ loads ks := List.filterMap_append

/-- Where nothing is detached, all stands that is attached. -/
theorem foldl_stand_of_detached (h : detached js = []) : js.foldl stand links = links ++ attached js := by
  induction js generalizing links with
  | nil => exact (List.append_nil links).symm
  | cons x js ih =>
    rw [List.foldl_cons]
    cases x with
    | detach l => cases h
    | attach l answer =>
      cases answer with
      | true => exact (ih h).trans (List.append_assoc links [l] _)
      | false => exact ih h
    | _ => exact ih h

/-- Detaching programs leaves the others. -/
theorem foldl_stand_detach (links rest : List Link) :
    (links.map Exchange.detach).foldl stand (links ++ rest) = rest := by
  induction links with
  | nil => rfl
  | cons l links ih =>
    rw [List.map_cons, List.foldl_cons, List.cons_append, stand, List.erase_cons_head]
    exact ih

theorem detached_detach : detached (links.map Exchange.detach) = links := by
  unfold detached
  rw [List.filterMap_map]
  exact List.filterMap_some

theorem attached_detach : attached (links.map Exchange.detach) = [] := by
  unfold attached
  rw [List.filterMap_map]
  exact List.filterMap_eq_nil_iff.2 fun _ _ => rfl

/-- Detaching all that was attached leaves nothing. -/
theorem standing_detach (h : detached js = []) : standing (js ++ (attached js).map .detach) = [] := by
  have hnone := foldl_stand_detach (attached js) []
  rw [List.append_nil] at hnone
  unfold standing
  rw [List.foldl_append, foldl_stand_of_detached h, List.nil_append]
  exact hnone

end Transcript

/-! ## What steps add -/

/-- Started with `links` attached, the steps extend the transcript by some
exchanges and the links by what these attached, and detach nothing; if they come to
an end, `Q` holds of the exchanges and the answer. -/
def Adds (links : List Link) (x : Setup (Recorded σ) α) (Q : List Exchange → α → Prop) : Prop :=
  ∀ p, p.links = links →
    ∃ js, (x p).2.host.2 = p.host.2 ++ js ∧ (x p).2.links = links ++ attached js ∧ detached js = [] ∧
      ∀ a, (x p).1 = .ok a → Q js a

section Steps
variable {links : List Link} {x : Setup (Recorded σ) α} {Q Q' : List Exchange → α → Prop}

theorem Adds.bind {f : α → Setup (Recorded σ) β} {R : List Exchange → β → Prop} (hx : Adds links x Q)
    (hf : ∀ js a, Q js a → Adds (links ++ attached js) (f a) fun ks b => R (js ++ ks) b) : Adds links (x >>= f) R := by
  intro p hp
  obtain ⟨js, hhost, hlinks, hdetached, hQ⟩ := hx p hp
  rw [bind_apply]
  cases h : (x p).1 with
  | error e => exact ⟨js, hhost, hlinks, hdetached, fun b hb => by cases hb⟩
  | ok a =>
    obtain ⟨ks, hhost', hlinks', hdetached', hR⟩ := hf js a (hQ a h) _ hlinks
    refine ⟨js ++ ks, ?_, ?_, ?_, hR⟩
    · rw [← List.append_assoc, ← hhost]
      exact hhost'
    · rw [attached_append, ← List.append_assoc]
      exact hlinks'
    · rw [detached_append, hdetached, hdetached']
      rfl

theorem Adds.mono (hx : Adds links x Q) (h : ∀ js a, Q js a → Q' js a) : Adds links x Q' := by
  intro p hp
  obtain ⟨js, hhost, hlinks, hdetached, hQ⟩ := hx p hp
  exact ⟨js, hhost, hlinks, hdetached, fun a ha => h js a (hQ a ha)⟩

theorem adds_pure {a : α} (h : Q [] a) : Adds links (pure a : Setup (Recorded σ) α) Q := by
  intro p hp
  refine ⟨[], (List.append_nil _).symm, hp.trans (List.append_nil _).symm, rfl, fun b hb => ?_⟩
  cases hb
  exact h

theorem adds_throw (e : BpfError) : Adds links (throw e : Setup (Recorded σ) α) Q := by
  intro p hp
  exact ⟨[], (List.append_nil _).symm, hp.trans (List.append_nil _).symm, rfl, fun b hb => by cases hb⟩

theorem adds_report {origin : Log.Origin} {level : Log.Level} {message : String} {fields : List (String × String)}
    {Q : List Exchange → Unit → Prop} (h : Q [] ()) :
    Adds links (report origin level message fields : Setup (Recorded σ) Unit) Q := by
  intro p hp
  exact ⟨[], (List.append_nil _).symm, hp.trans (List.append_nil _).symm, rfl, fun _ _ => h⟩

/-- An exchange that attaches and detaches nothing. -/
def Still (x : Exchange) : Prop := attached [x] = [] ∧ detached [x] = []

theorem adds_ask (request : StateM σ α) {entry : α → Exchange} (h : ∀ a, Still (entry a)) :
    Adds links (ask (record request entry)) fun js a => js = [entry a] := by
  intro p hp
  refine ⟨_, rfl, ?_, (h _).2, ?_⟩
  · rw [(h _).1, List.append_nil]
    exact hp
  · intro a ha
    cases ha
    rfl

theorem adds_askPath {action : PathAction} {path : String} (request : StateM σ (Except Fault α))
    {entry : Except Fault α → Exchange} (h : ∀ a, Still (entry a)) :
    Adds links (askPath action path (record request entry)) fun js a => js = [entry (.ok a)] := by
  refine (adds_ask request h).bind fun js answer hjs => ?_
  subst hjs
  cases answer with
  | ok a => exact adds_pure rfl
  | error fault => exact adds_throw _

end Steps

/-! ## Preparing the host -/

/-- Nothing was attached, detached or loaded. -/
structure Quiet (js : List Exchange) : Prop where
  attached : attached js = []
  loads : loads js = []

theorem Quiet.append {js ks : List Exchange} (hj : Quiet js) (hk : Quiet ks) : Quiet (js ++ ks) := by
  constructor
  · rw [attached_append, hj.attached, hk.attached]
    rfl
  · rw [loads_append, hj.loads, hk.loads]
    rfl

/-- The cgroup that a plan names, or the root that the answer about the
hierarchy's mount point tells. -/
def Chosen (plan : Plan) (js : List Exchange) (cgroup : String) : Prop :=
  match plan.cgroupPath with
  | some path => cgroup = path
  | none =>
    ∃ answer, .magic cgroupRoot answer ∈ js ∧
      cgroup = unifiedRoot cgroupRoot (answer.toOption == some FsType.cgroup2.magic)

section Host
variable (sys : System σ) {links : List Link}

theorem adds_raiseMemlock : Adds links (raiseMemlock sys.recorded) fun js _ => Quiet js := by
  refine (adds_ask _ fun _ => ⟨rfl, rfl⟩).bind fun js answer hjs => ?_
  subst hjs
  cases answer with
  | ok _ => exact adds_pure ⟨rfl, rfl⟩
  | error fault => exact adds_throw _

theorem adds_ensureBpf (root : String) : Adds links (ensureBpf sys.recorded root) fun js _ => Quiet js := by
  have hmake : Adds links (makeMissing sys.recorded root) fun js _ => Quiet js := by
    refine (adds_ask _ fun _ => ⟨rfl, rfl⟩).bind fun js present hjs => ?_
    subst hjs
    cases present with
    | true => exact adds_pure ⟨rfl, rfl⟩
    | false =>
      refine (adds_askPath _ fun _ => ⟨rfl, rfl⟩).mono fun ks _ hks => ?_
      subst hks
      exact ⟨rfl, rfl⟩
  refine hmake.bind fun js _ hjs => (adds_askPath _ fun _ => ⟨rfl, rfl⟩).bind fun ks magic hks => ?_
  subst hks
  split
  · refine (adds_askPath _ fun _ => ⟨rfl, rfl⟩).bind fun ls _ hls => adds_report ?_
    subst hls
    exact hjs.append ⟨rfl, rfl⟩
  · exact adds_pure (hjs.append ⟨rfl, rfl⟩)

theorem adds_loadObject (plan : Plan) :
    Adds links (loadObject sys.recorded plan) fun js loaded =>
      js = [.loadObject plan.object plan.pinPath (some loaded)] := by
  refine (adds_ask _ fun _ => ⟨rfl, rfl⟩).bind fun js answer hjs => ?_
  subst hjs
  cases answer with
  | some loaded => exact (adds_report (Q := fun js _ => js = []) rfl).bind fun js _ hjs => adds_pure (by rw [hjs]; rfl)
  | none => exact adds_throw _

theorem adds_chooseCgroup (plan : Plan) :
    Adds links (chooseCgroup sys.recorded plan) fun js cgroup => Quiet js ∧ Chosen plan js cgroup := by
  unfold chooseCgroup Chosen
  cases plan.cgroupPath with
  | some path => exact adds_pure ⟨⟨rfl, rfl⟩, rfl⟩
  | none =>
    refine (adds_ask _ fun _ => ⟨rfl, rfl⟩).bind fun js answer hjs => ?_
    subst hjs
    cases answer with
    | ok magic => exact adds_pure ⟨⟨rfl, rfl⟩, _, List.mem_singleton_self _, rfl⟩
    | error fault =>
      refine (adds_report (Q := fun js _ => js = []) rfl).bind fun js _ hjs => adds_pure ?_
      subst hjs
      exact ⟨⟨rfl, rfl⟩, _, List.mem_singleton_self _, rfl⟩

end Host

/-! ## Attaching -/

/-- The exchanges load nothing but programs of the object file. -/
def FromImage (loaded : Loaded) (js : List Exchange) : Prop :=
  ∀ l ∈ loads js, loaded.image.program? l.1.name = some l.1

/-- Names and numbers of the programs that were given to the kernel. -/
def loadNames (js : List Exchange) : List (String × Option Nat) := (loads js).map fun l => (l.1.name, l.2)

theorem loadNames_append {js ks : List Exchange} : loadNames (js ++ ks) = loadNames js ++ loadNames ks := by
  unfold loadNames
  rw [loads_append, List.map_append]

theorem fromImage_append {loaded : Loaded} {js ks : List Exchange} :
    FromImage loaded (js ++ ks) ↔ FromImage loaded js ∧ FromImage loaded ks := by
  unfold FromImage
  rw [loads_append]
  exact List.forall_mem_append

theorem fromImage_of_loads {loaded : Loaded} {js : List Exchange} (h : loads js = []) : FromImage loaded js := by
  unfold FromImage
  rw [h]
  exact List.forall_mem_nil _

section Attach
variable (sys : System σ) {links : List Link} (loaded : Loaded)

theorem adds_redirectMap :
    Adds links (redirectMap loaded : Setup (Recorded σ) Nat) fun js map =>
      js = [] ∧ loaded.number? Kernel.redirectMap.name = some map := by
  unfold redirectMap
  dsimp only
  split
  · rename_i number hnumber
    split
    · exact adds_pure ⟨rfl, hnumber⟩
    · exact adds_throw _
  · exact adds_throw _

/-- The program of a name is found under it. -/
theorem name_of_program? {image : Image} {name : String} {p : ProgramDef} (h : image.program? name = some p) :
    p.name = name := by
  simpa using List.find?_some h

theorem adds_program (name : String) (kind : ProgramKind) :
    Adds links (program loaded name kind : Setup (Recorded σ) ProgramDef) fun js p =>
      js = [] ∧ loaded.image.program? name = some p := by
  unfold program
  split
  · exact adds_throw _
  · rename_i p hp
    split
    · exact adds_pure ⟨rfl, hp⟩
    · exact adds_throw _

theorem adds_load (p : ProgramDef) :
    Adds links (load sys.recorded p) fun js number => js = [.loadProgram p (some number)] := by
  refine (adds_ask _ fun _ => ⟨rfl, rfl⟩).bind fun js answer hjs => ?_
  subst hjs
  cases answer with
  | none => exact adds_throw _
  | some number => exact adds_pure rfl

theorem attach_apply (sys : System σ) (name : String) (l : Link) (p : Progress σ) :
    attach sys name l p =
      if (sys.attach l p.host).1 = true then
        (.ok (), { p with host := (sys.attach l p.host).2, links := p.links ++ [l] })
      else (.error (.notAttached name), { p with host := (sys.attach l p.host).2 }) := by
  unfold attach
  rw [bind_apply]
  change (if (sys.attach l p.host).1 = true then _ else _ : Setup σ Unit) { p with host := (sys.attach l p.host).2 } = _
  split <;> rfl

theorem adds_attach (name : String) (l : Link) :
    Adds links (attach sys.recorded name l) fun js _ => js = [.attach l true] := by
  intro p hp
  have hrecorded : sys.recorded.attach l p.host =
      ((sys.attach l p.host.1).1, (sys.attach l p.host.1).2, p.host.2 ++ [.attach l (sys.attach l p.host.1).1]) := rfl
  rw [attach_apply, hrecorded]
  dsimp only
  cases (sys.attach l p.host.1).1 with
  | true => exact ⟨_, rfl, congrArg (· ++ [l]) hp, rfl, fun _ _ => rfl⟩
  | false => exact ⟨_, rfl, hp.trans (List.append_nil _).symm, rfl, fun a ha => by cases ha⟩

/-- The exchanges give the kernel the program of a name and attach it to a hook. -/
structure Attaches (loaded : Loaded) (name : String) (number : Nat) (hook : Hook) (js : List Exchange) : Prop where
  attached : attached js = [⟨number, hook⟩]
  loadNames : loadNames js = [(name, some number)]
  fromImage : FromImage loaded js

theorem Attaches.after {loaded : Loaded} {name : String} {number : Nat} {hook : Hook} {js ks : List Exchange}
    (hj : Quiet js) (hk : Attaches loaded name number hook ks) : Attaches loaded name number hook (js ++ ks) := by
  constructor
  · rw [attached_append, hj.attached, hk.attached]
    rfl
  · rw [loadNames_append, hk.loadNames, Install.loadNames, hj.loads]
    rfl
  · exact fromImage_append.2 ⟨fromImage_of_loads hj.loads, hk.fromImage⟩

theorem fromImage_load {name : String} {p : ProgramDef} (hp : loaded.image.program? name = some p)
    (answer : Option Nat) : FromImage loaded [.loadProgram p answer] := by
  intro l hl
  obtain rfl : l = (p, answer) := List.mem_singleton.1 hl
  rw [name_of_program? hp]
  exact hp

/-- The steps that the redirect program and the tracker have in common. -/
theorem adds_attachOwn (name : String) (kind : ProgramKind) (hook : Hook) (fields : List (String × String))
    (message : String) :
    Adds links (do
      let number ← load sys.recorded (← program loaded name kind)
      attach sys.recorded name ⟨number, hook⟩
      report .installer .info message fields) fun js _ => ∃ number, Attaches loaded name number hook js := by
  refine (adds_program loaded _ _).bind fun js p ⟨hjs, hp⟩ => ?_
  subst hjs
  refine (adds_load sys p).bind fun js number hjs => ?_
  subst hjs
  refine (adds_attach sys _ _).bind fun js _ hjs => adds_report ?_
  subst hjs
  refine ⟨number, rfl, ?_, fromImage_append.2 ⟨fromImage_of_loads rfl, ?_⟩⟩
  · rw [← name_of_program? hp]
    rfl
  · exact fromImage_append.2 ⟨fromImage_load loaded hp _, fromImage_of_loads rfl⟩

theorem adds_attachRedirect (pins : String) :
    Adds links (attachRedirect sys.recorded loaded pins) fun js _ =>
      ∃ map number, loaded.number? Kernel.redirectMap.name = some map ∧
        Attaches loaded Kernel.redirectProgram number (.map map) js := by
  refine (adds_redirectMap loaded).bind fun js map ⟨hjs, hmap⟩ => ?_
  subst hjs
  refine (adds_askPath _ fun _ => ⟨rfl, rfl⟩).bind fun js _ hjs => ?_
  subst hjs
  refine (adds_attachOwn sys loaded _ _ _ _ _).mono fun ks _ ⟨number, hattaches⟩ => ?_
  rw [List.nil_append]
  exact ⟨map, number, hmap, hattaches.after ⟨rfl, rfl⟩⟩

theorem adds_attachTracker (cgroup : String) :
    Adds links (attachTracker sys.recorded loaded cgroup) fun js _ =>
      ∃ place number, .openFile cgroup (.ok place) ∈ js ∧
        Attaches loaded Kernel.trackerProgram number (.cgroup place) js := by
  refine (adds_askPath _ fun _ => ⟨rfl, rfl⟩).bind fun js place hjs => ?_
  subst hjs
  refine (adds_attachOwn sys loaded _ _ _ _ _).mono fun ks _ ⟨number, hattaches⟩ => ?_
  exact ⟨place, number, List.mem_cons_self, hattaches.after ⟨rfl, rfl⟩⟩

/-! ## Classifiers -/

theorem classifierOf?_append_of_none {links : List Link} (h : classifierOf? links = none) (number : Nat)
    (interface : String) : classifierOf? (links ++ [⟨number, .interface interface⟩]) = some number := by
  unfold classifierOf? at h ⊢
  rw [List.findSome?_append, h]
  rfl

theorem classifierOf?_append_of_some {links : List Link} {number : Nat} (h : classifierOf? links = some number)
    (others : List Link) : classifierOf? (links ++ others) = some number := by
  unfold classifierOf? at h ⊢
  rw [List.findSome?_append, h]
  rfl

/-- The classifier is loaded unless an interface has it. -/
theorem adds_loadClassifier (p : ProgramDef) :
    Adds links (loadClassifier sys.recorded p) fun js number =>
      (classifierOf? links = some number ∧ js = []) ∨
        (classifierOf? links = none ∧ js = [.loadProgram p (some number)]) := by
  intro q hq
  rw [loadClassifier_apply, hq]
  cases hc : classifierOf? links with
  | some number => exact adds_pure (Q := fun js n => (some number = some n ∧ js = []) ∨ _) (.inl ⟨rfl, rfl⟩) q hq
  | none => exact ((adds_load sys p).mono fun js number hjs => .inr ⟨rfl, hjs⟩) q hq

theorem adds_attachClassifier (interface : String) :
    Adds links (attachClassifier sys.recorded loaded interface) fun js _ =>
      ∃ number, attached js = [⟨number, .interface interface⟩] ∧
        ((classifierOf? links = some number ∧ loads js = []) ∨
          (classifierOf? links = none ∧ loadNames js = [(Kernel.classifierProgram, some number)] ∧
            FromImage loaded js)) := by
  have hqdisc : Adds links (addQdisc sys.recorded interface) fun js _ => Quiet js := by
    refine (adds_ask _ fun _ => ⟨rfl, rfl⟩).bind fun js added hjs => ?_
    subst hjs
    cases added with
    | true => exact adds_pure ⟨rfl, rfl⟩
    | false => exact adds_report ⟨rfl, rfl⟩
  refine hqdisc.bind fun js _ hjs => ?_
  rw [hjs.attached, List.append_nil]
  refine (adds_program loaded _ _).bind fun ks p ⟨hks, hp⟩ => ?_
  subst hks
  rw [show attached [] = [] from rfl, List.append_nil]
  refine (adds_loadClassifier sys p).bind fun ks number hks => ?_
  refine (adds_attach sys _ _).bind fun ls _ hls => adds_report ?_
  subst hls
  refine ⟨number, ?_, ?_⟩
  · have hnone : attached ks = [] := by
      rcases hks with ⟨-, rfl⟩ | ⟨-, rfl⟩ <;> rfl
    rw [attached_append, attached_append, attached_append, hjs.attached, hnone]
    rfl
  · rcases hks with ⟨hc, rfl⟩ | ⟨hc, rfl⟩
    · refine .inl ⟨hc, ?_⟩
      rw [loads_append, hjs.loads]
      rfl
    · refine .inr ⟨hc, ?_, ?_⟩
      · rw [loadNames_append, loadNames, hjs.loads, ← name_of_program? hp]
        rfl
      · simp only [fromImage_append]
        exact ⟨fromImage_of_loads hjs.loads, fromImage_of_loads rfl, fromImage_load loaded hp _,
          fromImage_of_loads rfl, fromImage_of_loads rfl⟩

/-- Once an interface has the classifier, the others share it. -/
theorem adds_classifiers_of_some {number : Nat} (h : classifierOf? links = some number) (interfaces : List String) :
    Adds links (interfaces.forM (attachClassifier sys.recorded loaded)) fun js _ =>
      attached js = interfaces.map (⟨number, .interface ·⟩) ∧ loads js = [] := by
  induction interfaces generalizing links with
  | nil => exact adds_pure ⟨rfl, rfl⟩
  | cons interface interfaces ih =>
    refine (adds_attachClassifier sys loaded interface).bind fun js _ ⟨n, hattached, hload⟩ => ?_
    rcases hload with ⟨hn, hloads⟩ | ⟨hn, -⟩
    · obtain rfl : number = n := Option.some.inj (h.symm.trans hn)
      refine (ih (classifierOf?_append_of_some h _)).mono fun ks _ ⟨hrest, hnone⟩ => ?_
      rw [attached_append, loads_append, hattached, hloads, hrest, hnone]
      exact ⟨rfl, rfl⟩
    · rw [h] at hn
      cases hn

/-- The first interface loads the classifier, if there is one. -/
theorem adds_classifiers (h : classifierOf? links = none) (interfaces : List String) :
    Adds links (interfaces.forM (attachClassifier sys.recorded loaded)) fun js _ =>
      ∃ number, attached js = interfaces.map (⟨number, .interface ·⟩) ∧
        loadNames js = (if interfaces = [] then [] else [(Kernel.classifierProgram, some number)]) ∧
        FromImage loaded js := by
  cases interfaces with
  | nil => exact adds_pure ⟨0, rfl, rfl, fromImage_of_loads rfl⟩
  | cons interface interfaces =>
    refine (adds_attachClassifier sys loaded interface).bind fun js _ ⟨number, hattached, hload⟩ => ?_
    rcases hload with ⟨hn, -⟩ | ⟨-, hname, himage⟩
    · rw [h] at hn
      cases hn
    · rw [hattached]
      refine (adds_classifiers_of_some sys loaded (classifierOf?_append_of_none h _ _) interfaces).mono
        fun ks _ ⟨hrest, hnone⟩ => ⟨number, ?_, ?_, ?_⟩
      · rw [attached_append, hattached, hrest]
        rfl
      · rw [loadNames_append, hname, loadNames, hnone]
        rfl
      · exact fromImage_append.2 ⟨himage, fromImage_of_loads hnone⟩

end Attach

/-! ## Installations -/

/-- What a complete transcript of an installation holds. -/
structure Complete (plan : Plan) (loaded : Loaded) (map redirect tracker classifier : Nat) (place : Location)
    (js : List Exchange) : Prop where
  /-- The object file of the plan was loaded. -/
  object : .loadObject plan.object plan.pinPath (some loaded) ∈ js
  redirectMap : loaded.number? Kernel.redirectMap.name = some map
  cgroup : ∃ cgroup, Chosen plan js cgroup ∧ .openFile cgroup (.ok place) ∈ js
  attached : attached js =
    ⟨redirect, .map map⟩ :: ⟨tracker, .cgroup place⟩ :: plan.interfaces.map (⟨classifier, .interface ·⟩)
  /-- Each program was given to the kernel once, and the classifier only for an interface. -/
  loads : loadNames js =
    (Kernel.redirectProgram, some redirect) :: (Kernel.trackerProgram, some tracker) ::
      if plan.interfaces = [] then [] else [(Kernel.classifierProgram, some classifier)]
  fromImage : FromImage loaded js

theorem Chosen.mono {plan : Plan} {js ks : List Exchange} {cgroup : String} (h : Chosen plan js cgroup)
    (hsub : js ⊆ ks) : Chosen plan ks cgroup := by
  revert h
  unfold Chosen
  cases plan.cgroupPath with
  | some path => exact id
  | none => exact fun ⟨answer, hmem, hcgroup⟩ => ⟨answer, hsub hmem, hcgroup⟩

theorem adds_steps (sys : System σ) (plan : Plan) :
    Adds [] (steps sys.recorded plan) fun js _ =>
      ∃ loaded map redirect tracker classifier place,
        Complete plan loaded map redirect tracker classifier place js := by
  refine (adds_raiseMemlock sys).bind fun limit _ hlimit => ?_
  refine (adds_ensureBpf sys bpfRoot).bind fun mount _ hmount => ?_
  refine (adds_askPath _ fun _ => ⟨rfl, rfl⟩).bind fun pins _ hpins => ?_
  refine (adds_loadObject sys plan).bind fun object loaded hobject => ?_
  refine (adds_attachRedirect sys loaded plan.pinPath).bind fun redirects _ ⟨map, redirect, hmap, hredirects⟩ => ?_
  refine (adds_chooseCgroup sys plan).bind fun choice cgroup ⟨hchoice, hchosen⟩ => ?_
  refine (adds_attachTracker sys loaded cgroup).bind fun tracks _ ⟨place, tracker, hplace, htracks⟩ => ?_
  subst hpins hobject
  rw [hlimit.attached, hmount.attached, hredirects.attached, hchoice.attached, htracks.attached]
  have hnone : classifierOf? [⟨redirect, .map map⟩, ⟨tracker, .cgroup place⟩] = none := rfl
  refine (adds_classifiers sys loaded hnone plan.interfaces).mono fun classifiers _ h => ?_
  obtain ⟨classifier, hattached, hloads, himage⟩ := h
  refine ⟨loaded, map, redirect, tracker, classifier, place, ?_, hmap, ⟨cgroup, hchosen.mono ?_, ?_⟩, ?_, ?_, ?_⟩
  · simp
  · intro x hx
    simp [hx]
  · simp [hplace]
  · simp only [attached_append, hlimit.attached, hmount.attached, hredirects.attached, hchoice.attached,
      htracks.attached, hattached]
    rfl
  · simp only [loadNames_append, hredirects.loadNames, htracks.loadNames, hloads]
    simp only [loadNames, hlimit.loads, hmount.loads, hchoice.loads]
    rfl
  · simp only [fromImage_append]
    exact ⟨fromImage_of_loads hlimit.loads, fromImage_of_loads hmount.loads, fromImage_of_loads rfl,
      fromImage_of_loads rfl, hredirects.fromImage, fromImage_of_loads hchoice.loads, htracks.fromImage, himage⟩

/-- What an installation and its end ask of a system, whatever the system answers.
Recording it changes nothing (`install_recorded`, `close_recorded`). When the
installation fails, all that it attached is detached again. When it succeeds, the
redirect program is attached to the redirect map, the tracker to the chosen cgroup
and the classifier to each interface in order; each of them was loaded once, and
the classifier only if there is an interface. To close it detaches them all and
then removes pins, whether these can be removed or not. -/
theorem attachments_all_or_none (sys : System σ) (plan : Plan) (host : σ) :
    let r := install sys.recorded plan (host, [])
    let js := r.host.2
    (r.host.1 = (install sys plan host).host ∧ r.reports = (install sys plan host).reports ∧
        r.answer = (install sys plan host).answer) ∧
      match r.answer with
      | .error _ => standing js = [] ∧ detached js = attached js
      | .ok i =>
        standing js = attached js ∧ i.links = attached js ∧ i.interfaces = plan.interfaces ∧
          (∃ loaded map redirect tracker classifier place,
            Complete plan loaded map redirect tracker classifier place js) ∧
          ∀ later : σ,
            let c := close sys.recorded i (later, js)
            (c.host.1 = (close sys i later).host ∧ c.reports = (close sys i later).reports ∧
                c.answer = (close sys i later).answer) ∧
              ∃ removals, c.host.2 = js ++ i.links.map .detach ++ removals ∧
                standing (js ++ i.links.map .detach) = [] ∧
                ∀ x ∈ removals, ∃ name ∈ Pins.names, ∃ answer, x = .remove (Path.join plan.pinPath name) answer := by
  intro r js
  refine ⟨install_recorded sys plan (host, []), ?_⟩
  obtain ⟨ks, hhost, hlinks, hdetached, hcomplete⟩ := adds_steps sys plan ⟨(host, []), [], []⟩ rfl
  rw [List.nil_append] at hhost hlinks
  have hr : r = _ := install_apply sys.recorded plan (host, [])
  cases hanswer : (steps sys.recorded plan ⟨(host, []), [], []⟩).1 with
  | error e =>
    rw [hanswer] at hr
    have hjs : js = ks ++ (attached ks).map .detach := by
      change r.host.2 = _
      rw [hr, detachAll_recorded, hhost, hlinks]
    rw [hr, hjs, detached_append, attached_append, hdetached, detached_detach, attached_detach, List.nil_append,
      List.append_nil]
    exact ⟨standing_detach hdetached, rfl⟩
  | ok _ =>
    rw [hanswer] at hr
    have hjs : js = ks := by
      change r.host.2 = _
      rw [hr]
      exact hhost
    rw [hr, hjs]
    dsimp only
    have hstanding : standing ks = attached ks := foldl_stand_of_detached hdetached
    refine ⟨hstanding, hlinks, rfl, hcomplete () hanswer, fun later => ?_⟩
    obtain ⟨hhost', hreports, hanswer', removals, hjournal, hremovals⟩ := close_recorded sys
      ⟨plan.pinPath, plan.interfaces, (steps sys.recorded plan ⟨(host, []), [], []⟩).2.links⟩ (later, ks)
    refine ⟨⟨hhost', hreports, hanswer'⟩, removals, hjournal, ?_, hremovals⟩
    rw [hlinks]
    exact standing_detach hdetached

/-- A machine with two interfaces, and an object file of all maps and programs. -/
def twoInterfaces : Machine :=
  let programs : List ProgramDef :=
    [⟨Kernel.trackerProgram, .sockOps, true⟩, ⟨Kernel.redirectProgram, .message, true⟩,
      ⟨Kernel.classifierProgram, .classifier, true⟩]
  let nodes : List (Location × Node Content) :=
    [([], .directory .disk), (["sys"], .directory .tmpfs), (["sys", "fs"], .directory .tmpfs),
      (["sys", "fs", "bpf"], .directory .bpf), (["sys", "fs", "cgroup"], .directory .cgroup2),
      (["splice.o"], .file .disk (.object ⟨Kernel.mapDefs, programs⟩))]
  { Machine.fresh ⟨[], nodes, []⟩ false with interfaces := ["lo", "eth0"] }

/-- On both interfaces all programs are attached, and detached to close. With a third
that is not there, the same four are attached and detached again. -/
theorem attachments_all_or_none_twoInterfaces :
    let plan (interfaces : List String) : Plan := ⟨"/splice.o", "/sys/fs/bpf/splice", none, interfaces⟩
    let links : List Link :=
      [⟨0, .map 2⟩, ⟨1, .cgroup ["sys", "fs", "cgroup"]⟩, ⟨2, .interface "lo"⟩, ⟨2, .interface "eth0"⟩]
    let done := install Machine.system.recorded (plan ["lo", "eth0"]) (twoInterfaces, [])
    let failed := install Machine.system.recorded (plan ["lo", "eth0", "wlan0"]) (twoInterfaces, [])
    (∃ i, done.answer = .ok i ∧ i.links = links ∧ standing done.host.2 = links ∧
        (∃ loaded map redirect tracker classifier place,
          Complete (plan ["lo", "eth0"]) loaded map redirect tracker classifier place done.host.2) ∧
        let c := close Machine.system.recorded i done.host
        c.answer = .ok () ∧ ∃ removals, c.host.2 = done.host.2 ++ links.map .detach ++ removals ∧
          standing (done.host.2 ++ links.map .detach) = []) ∧
      ∃ e, failed.answer = .error e ∧ attached failed.host.2 = links ∧ detached failed.host.2 = links ∧
        standing failed.host.2 = [] := by
  intro plan links done failed
  constructor
  · have hanswer : done.answer = .ok ⟨"/sys/fs/bpf/splice", ["lo", "eth0"], links⟩ := by decide +kernel
    have hall := (attachments_all_or_none Machine.system (plan ["lo", "eth0"]) twoInterfaces).2
    rw [hanswer] at hall
    obtain ⟨hstanding, hlinks, -, hcomplete, hclose⟩ := hall
    obtain ⟨removals, hhost, hnone, -⟩ := (hclose done.host.1).2
    refine ⟨_, hanswer, rfl, hstanding.trans hlinks.symm, hcomplete, ?_, removals, hhost, hnone⟩
    decide +kernel
  · have hanswer : failed.answer = .error (.notAttached Kernel.classifierProgram) := by decide +kernel
    have hattached : attached failed.host.2 = links := by decide +kernel
    have hall := (attachments_all_or_none Machine.system (plan ["lo", "eth0", "wlan0"]) twoInterfaces).2
    rw [hanswer] at hall
    exact ⟨_, hanswer, hattached, hall.2.trans hattached, hall.1⟩

end Splice.Install
