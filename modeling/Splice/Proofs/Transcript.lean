import Splice.Install
/-!
# Transcripts

A transcript is what an installer asked of a system, in order, each request with
the system's answer. `System.recorded` keeps one beside the system's own state.
Recording changes nothing: whatever the system answers, `install` and `close` do
with the recorded system what they do with the system itself.
-/

namespace Splice

open Host

/-! ## Requests and answers -/

/-- A request to a system, and its answer. -/
inductive Exchange where
  | raiseMemlock (answer : Except Fault Unit)
  | present (path : String) (answer : Bool)
  | makePath (path : String) (answer : Except Fault Unit)
  | magic (path : String) (answer : Except Fault Nat)
  | mountBpf (path : String) (answer : Except Fault Unit)
  | loadObject (object pins : String) (answer : Option Loaded)
  | shareMap (number : Nat) (answer : Except Fault Unit)
  | loadProgram (p : ProgramDef) (answer : Option Nat)
  | openFile (path : String) (answer : Except Fault Location)
  | addQdisc (name : String) (answer : Bool)
  | attach (l : Link) (answer : Bool)
  | detach (l : Link)
  | remove (path : String) (answer : Except Fault Unit)

variable {σ α β : Type}

/-- The system, and what it was asked so far. -/
abbrev Recorded (σ : Type) := σ × List Exchange

/-- Makes a request and adds it to the transcript. -/
def record (request : StateM σ α) (entry : α → Exchange) : StateM (Recorded σ) α := fun s =>
  let (a, host) := request s.1
  (a, host, s.2 ++ [entry a])

/-- A system that keeps a transcript. -/
def Host.System.recorded (sys : System σ) : System (Recorded σ) where
  raiseMemlock := record sys.raiseMemlock .raiseMemlock
  present path := record (sys.present path) (.present path)
  makePath path := record (sys.makePath path) (.makePath path)
  magic path := record (sys.magic path) (.magic path)
  mountBpf path := record (sys.mountBpf path) (.mountBpf path)
  loadObject object pins := record (sys.loadObject object pins) (.loadObject object pins)
  shareMap number := record (sys.shareMap number) (.shareMap number)
  loadProgram p := record (sys.loadProgram p) (.loadProgram p)
  openFile path := record (sys.openFile path) (.openFile path)
  addQdisc name := record (sys.addQdisc name) (.addQdisc name)
  attach l := record (sys.attach l) (.attach l)
  detach l := record (sys.detach l) fun _ => .detach l
  remove path := record (sys.remove path) (.remove path)

namespace Install

/-! ## Steps one after another -/

theorem bind_apply (x : Setup σ α) (f : α → Setup σ β) (p : Progress σ) :
    (x >>= f) p =
      match (x p).1 with
      | .ok a => f a (x p).2
      | .error e => (.error e, (x p).2) := by
  change ExceptT.bindCont f (x p).1 (x p).2 = _
  cases (x p).1 <;> rfl

/-- Whether the classifier is loaded depends on the links alone. -/
theorem loadClassifier_apply (sys : System σ) (p : ProgramDef) (q : Progress σ) :
    loadClassifier sys p q =
      match classifierOf? q.links with
      | some number => (.ok number, q)
      | none => load sys p q := by
  unfold loadClassifier
  rw [bind_apply]
  change (match classifierOf? q.links with
    | some number => (pure number : Setup σ Nat)
    | none => load sys p) q = _
  cases classifierOf? q.links <;> rfl

/-! ## Recording changes nothing -/

/-- Progress without the transcript. -/
def Progress.plain (p : Progress (Recorded σ)) : Progress σ := ⟨p.host.1, p.reports, p.links⟩

/-- The steps `x`, taken on a recorded system, do what the steps `y` do. -/
def Mirrors (x : Setup (Recorded σ) α) (y : Setup σ α) : Prop :=
  ∀ p, ((x p).1, (x p).2.plain) = y p.plain

theorem Mirrors.bind {x : Setup (Recorded σ) α} {y : Setup σ α} {f : α → Setup (Recorded σ) β} {g : α → Setup σ β}
    (hx : Mirrors x y) (hf : ∀ a, Mirrors (f a) (g a)) : Mirrors (x >>= f) (y >>= g) := by
  intro p
  rw [bind_apply, bind_apply, ← hx p]
  cases (x p).1 with
  | ok a => exact hf a _
  | error e => rfl

theorem mirrors_pure (a : α) : Mirrors (pure a : Setup (Recorded σ) α) (pure a) := fun _ => rfl

theorem mirrors_throw (e : BpfError) : Mirrors (throw e : Setup (Recorded σ) α) (throw e) := fun _ => rfl

theorem mirrors_report (origin : Log.Origin) (level : Log.Level) (message : String) (fields : List (String × String)) :
    Mirrors (report origin level message fields : Setup (Recorded σ) Unit) (report origin level message fields) :=
  fun _ => rfl

theorem mirrors_ask (request : StateM σ α) (entry : α → Exchange) :
    Mirrors (ask (record request entry)) (ask request) := fun _ => rfl

theorem mirrors_askPath (action : PathAction) (path : String) (request : StateM σ (Except Fault α))
    (entry : Except Fault α → Exchange) :
    Mirrors (askPath action path (record request entry)) (askPath action path request) := by
  refine (mirrors_ask _ _).bind fun answer => ?_
  cases answer with
  | ok a => exact mirrors_pure a
  | error fault => exact mirrors_throw _

section Steps
variable (sys : System σ)

theorem mirrors_raiseMemlock : Mirrors (raiseMemlock sys.recorded) (raiseMemlock sys) := by
  refine (mirrors_ask _ _).bind fun answer => ?_
  cases answer with
  | ok _ => exact mirrors_pure ()
  | error fault => exact mirrors_throw _

theorem mirrors_ensureBpf (root : String) : Mirrors (ensureBpf sys.recorded root) (ensureBpf sys root) := by
  have hmake : Mirrors (makeMissing sys.recorded root) (makeMissing sys root) := by
    refine (mirrors_ask _ _).bind fun present => ?_
    cases present with
    | true => exact mirrors_pure ()
    | false => exact mirrors_askPath _ _ _ _
  refine hmake.bind fun _ => (mirrors_askPath _ _ _ _).bind fun magic => ?_
  split
  · exact (mirrors_askPath _ _ _ _).bind fun _ => mirrors_report _ _ _ _
  · exact mirrors_pure ()

theorem mirrors_detectCgroup : Mirrors (detectCgroup sys.recorded) (detectCgroup sys) := by
  refine (mirrors_ask _ _).bind fun answer => ?_
  cases answer with
  | ok magic => exact mirrors_pure _
  | error fault => exact (mirrors_report _ _ _ _).bind fun _ => mirrors_pure _

theorem mirrors_program (loaded : Loaded) (name : String) (kind : ProgramKind) :
    Mirrors (program loaded name kind : Setup (Recorded σ) ProgramDef) (program loaded name kind) := by
  unfold program
  split
  · exact mirrors_throw _
  · split
    · exact mirrors_pure _
    · exact mirrors_throw _

theorem mirrors_load (p : ProgramDef) : Mirrors (load sys.recorded p) (load sys p) := by
  refine (mirrors_ask _ _).bind fun answer => ?_
  cases answer with
  | none => exact mirrors_throw _
  | some number => exact mirrors_pure number

theorem mirrors_attach (name : String) (l : Link) : Mirrors (attach sys.recorded name l) (attach sys name l) := by
  refine (mirrors_ask _ _).bind fun attached => ?_
  cases attached with
  | true => exact fun _ => rfl
  | false => exact mirrors_throw _

theorem mirrors_redirectMap (loaded : Loaded) :
    Mirrors (redirectMap loaded : Setup (Recorded σ) Nat) (redirectMap loaded) := by
  unfold redirectMap
  dsimp only
  split
  · split
    · exact mirrors_pure _
    · exact mirrors_throw _
  · exact mirrors_throw _

theorem mirrors_attachRedirect (loaded : Loaded) (pins : String) :
    Mirrors (attachRedirect sys.recorded loaded pins) (attachRedirect sys loaded pins) := by
  refine (mirrors_redirectMap loaded).bind fun map => ?_
  refine (mirrors_askPath _ _ _ _).bind fun _ => ?_
  refine (mirrors_program loaded _ _).bind fun p => ?_
  refine (mirrors_load sys p).bind fun number => ?_
  exact (mirrors_attach sys _ _).bind fun _ => mirrors_report _ _ _ _

theorem mirrors_attachTracker (loaded : Loaded) (cgroup : String) :
    Mirrors (attachTracker sys.recorded loaded cgroup) (attachTracker sys loaded cgroup) := by
  refine (mirrors_askPath _ _ _ _).bind fun place => ?_
  refine (mirrors_program loaded _ _).bind fun p => ?_
  refine (mirrors_load sys p).bind fun number => ?_
  exact (mirrors_attach sys _ _).bind fun _ => mirrors_report _ _ _ _

theorem mirrors_loadClassifier (p : ProgramDef) : Mirrors (loadClassifier sys.recorded p) (loadClassifier sys p) := by
  intro q
  rw [loadClassifier_apply, loadClassifier_apply]
  change _ = match classifierOf? q.links with
    | some number => (Except.ok number, q.plain)
    | none => load sys p q.plain
  cases classifierOf? q.links with
  | some number => rfl
  | none => exact mirrors_load sys p q

theorem mirrors_attachClassifier (loaded : Loaded) (interface : String) :
    Mirrors (attachClassifier sys.recorded loaded interface) (attachClassifier sys loaded interface) := by
  have hqdisc : Mirrors (addQdisc sys.recorded interface) (addQdisc sys interface) := by
    refine (mirrors_ask _ _).bind fun added => ?_
    cases added with
    | true => exact mirrors_pure ()
    | false => exact mirrors_report _ _ _ _
  refine hqdisc.bind fun _ => ?_
  refine (mirrors_program loaded _ _).bind fun p => ?_
  refine (mirrors_loadClassifier sys p).bind fun number => ?_
  exact (mirrors_attach sys _ _).bind fun _ => mirrors_report _ _ _ _

theorem mirrors_forM {step : α → Setup (Recorded σ) Unit} {step' : α → Setup σ Unit}
    (h : ∀ a, Mirrors (step a) (step' a)) (as : List α) : Mirrors (as.forM step) (as.forM step') := by
  induction as with
  | nil => exact mirrors_pure ()
  | cons a as ih => exact (h a).bind fun _ => ih

theorem mirrors_loadObject (plan : Plan) : Mirrors (loadObject sys.recorded plan) (loadObject sys plan) := by
  refine (mirrors_ask _ _).bind fun answer => ?_
  cases answer with
  | some loaded => exact (mirrors_report _ _ _ _).bind fun _ => mirrors_pure loaded
  | none => exact mirrors_throw _

theorem mirrors_chooseCgroup (plan : Plan) : Mirrors (chooseCgroup sys.recorded plan) (chooseCgroup sys plan) := by
  unfold chooseCgroup
  split
  · exact mirrors_pure _
  · exact mirrors_detectCgroup sys

theorem mirrors_steps (plan : Plan) : Mirrors (steps sys.recorded plan) (steps sys plan) := by
  refine (mirrors_raiseMemlock sys).bind fun _ => ?_
  refine (mirrors_ensureBpf sys bpfRoot).bind fun _ => ?_
  refine (mirrors_askPath _ _ _ _).bind fun _ => ?_
  refine (mirrors_loadObject sys plan).bind fun loaded => ?_
  refine (mirrors_attachRedirect sys loaded plan.pinPath).bind fun _ => ?_
  refine (mirrors_chooseCgroup sys plan).bind fun cgroup => ?_
  refine (mirrors_attachTracker sys loaded cgroup).bind fun _ => ?_
  exact mirrors_forM (mirrors_attachClassifier sys loaded) plan.interfaces

end Steps

/-! ## Installing and closing -/

theorem detachAll_recorded (sys : System σ) (links : List Link) (s : Recorded σ) :
    (detachAll sys.recorded links s).2 = ((detachAll sys links s.1).2, s.2 ++ links.map .detach) := by
  induction links generalizing s with
  | nil => exact congrArg (s.1, ·) (List.append_nil s.2).symm
  | cons l links ih =>
    refine (ih _).trans ?_
    change (_, s.2 ++ [Exchange.detach l] ++ _) = _
    rw [List.append_assoc]
    rfl

theorem unpinNames_cons (remove : String → StateM σ (Except Fault Unit)) (dir name : String) (names : List String)
    (removed : Nat) (s : σ) :
    Pins.unpinNames remove dir (name :: names) removed s =
      match (remove (Path.join dir name) s).1 with
      | .ok () => Pins.unpinNames remove dir names (removed + 1) (remove (Path.join dir name) s).2
      | .error .notFound => Pins.unpinNames remove dir names removed (remove (Path.join dir name) s).2
      | .error fault => (.error (.path .unpin (Path.join dir name) fault), (remove (Path.join dir name) s).2) := by
  rw [Pins.unpinNames]
  change (match (remove (Path.join dir name) s).1 with
    | .ok () => Pins.unpinNames remove dir names (removed + 1)
    | .error .notFound => Pins.unpinNames remove dir names removed
    | .error fault => (pure (.error (.path .unpin (Path.join dir name) fault)) : StateM σ (Except BpfError Nat)))
    (remove (Path.join dir name) s).2 = _
  obtain ⟨answer, host⟩ := remove (Path.join dir name) s
  dsimp only
  split <;> rfl

/-- Removing pins asks for nothing but that, whatever comes of it. -/
theorem unpinNames_recorded (sys : System σ) (dir : String) (names : List String) (removed : Nat) (s : Recorded σ) :
    ∃ answers,
      Pins.unpinNames sys.recorded.remove dir names removed s =
        ((Pins.unpinNames sys.remove dir names removed s.1).1,
          (Pins.unpinNames sys.remove dir names removed s.1).2, s.2 ++ answers) ∧
        ∀ x ∈ answers, ∃ name ∈ names, ∃ answer, x = .remove (Path.join dir name) answer := by
  induction names generalizing removed s with
  | nil => exact ⟨[], congrArg (fun js => (_, s.1, js)) (List.append_nil s.2).symm, by simp⟩
  | cons name names ih =>
    rw [unpinNames_cons, unpinNames_cons]
    have hfirst : sys.recorded.remove (Path.join dir name) s =
      ((sys.remove (Path.join dir name) s.1).1, (sys.remove (Path.join dir name) s.1).2,
        s.2 ++ [.remove (Path.join dir name) (sys.remove (Path.join dir name) s.1).1]) := rfl
    rw [hfirst]
    dsimp only
    obtain ⟨answer, host⟩ := sys.remove (Path.join dir name) s.1
    have hcons (rest : List Exchange)
        (hrest : ∀ x ∈ rest, ∃ other ∈ names, ∃ answer, x = .remove (Path.join dir other) answer) :
        ∀ x ∈ Exchange.remove (Path.join dir name) answer :: rest,
          ∃ other ∈ name :: names, ∃ answer, x = .remove (Path.join dir other) answer := by
      intro x hx
      rcases List.mem_cons.1 hx with rfl | hx
      · exact ⟨name, List.mem_cons_self, answer, rfl⟩
      · obtain ⟨other, hother, answer, rfl⟩ := hrest x hx
        exact ⟨other, List.mem_cons_of_mem _ hother, answer, rfl⟩
    dsimp only
    split
    · obtain ⟨rest, heq, hrest⟩ := ih (removed + 1) (host, s.2 ++ [.remove (Path.join dir name) (.ok ())])
      exact ⟨_, heq.trans (by rw [List.append_assoc]; rfl), hcons rest hrest⟩
    · obtain ⟨rest, heq, hrest⟩ := ih removed (host, s.2 ++ [.remove (Path.join dir name) (.error .notFound)])
      exact ⟨_, heq.trans (by rw [List.append_assoc]; rfl), hcons rest hrest⟩
    · exact ⟨_, rfl, hcons [] (by simp)⟩

theorem install_apply (sys : System σ) (plan : Plan) (host : σ) :
    install sys plan host =
      match (steps sys plan ⟨host, [], []⟩).1 with
      | .ok () =>
        ⟨(steps sys plan ⟨host, [], []⟩).2.host, (steps sys plan ⟨host, [], []⟩).2.reports,
          .ok ⟨plan.pinPath, plan.interfaces, (steps sys plan ⟨host, [], []⟩).2.links⟩⟩
      | .error e =>
        ⟨(detachAll sys (steps sys plan ⟨host, [], []⟩).2.links (steps sys plan ⟨host, [], []⟩).2.host).2,
          (steps sys plan ⟨host, [], []⟩).2.reports, .error e⟩ := by
  have hrun : (steps sys plan).run ⟨host, [], []⟩ = steps sys plan ⟨host, [], []⟩ := rfl
  unfold install
  rw [hrun]
  obtain ⟨answer, p⟩ := steps sys plan ⟨host, [], []⟩
  cases answer <;> rfl

/-- Installing on a recorded system does what it does on the system. -/
theorem install_recorded (sys : System σ) (plan : Plan) (s : Recorded σ) :
    (install sys.recorded plan s).host.1 = (install sys plan s.1).host ∧
      (install sys.recorded plan s).reports = (install sys plan s.1).reports ∧
      (install sys.recorded plan s).answer = (install sys plan s.1).answer := by
  have h := mirrors_steps sys plan ⟨s, [], []⟩
  rw [install_apply, install_apply]
  change (_, _) = steps sys plan ⟨s.1, [], []⟩ at h
  rw [← h]
  dsimp only
  cases (steps sys.recorded plan ⟨s, [], []⟩).1 with
  | ok _ => exact ⟨rfl, rfl, rfl⟩
  | error e => exact ⟨congrArg Prod.fst (detachAll_recorded sys _ _), rfl, rfl⟩

/-- Closing on a recorded system does what it does on the system: it detaches,
and then removes pins. -/
theorem close_recorded (sys : System σ) (i : Installation) (s : Recorded σ) :
    (close sys.recorded i s).host.1 = (close sys i s.1).host ∧
      (close sys.recorded i s).reports = (close sys i s.1).reports ∧
      (close sys.recorded i s).answer = (close sys i s.1).answer ∧
      ∃ answers, (close sys.recorded i s).host.2 = s.2 ++ i.links.map .detach ++ answers ∧
        ∀ x ∈ answers, ∃ name ∈ Pins.names, ∃ answer, x = .remove (Path.join i.pinPath name) answer := by
  have hrelease : release sys.recorded i s = (release sys i s.1, s.2 ++ i.links.map .detach) :=
    detachAll_recorded sys i.links s
  obtain ⟨answers, hunpin, hanswers⟩ := unpinNames_recorded sys i.pinPath Pins.names 0 (release sys.recorded i s)
  rw [hrelease] at hunpin
  unfold close Pins.unpin
  rw [hrelease, hunpin]
  dsimp only
  obtain ⟨answer, host⟩ := Pins.unpinNames sys.remove i.pinPath Pins.names 0 (release sys i s.1)
  cases answer with
  | ok removed => exact ⟨rfl, rfl, rfl, answers, rfl, hanswers⟩
  | error e => exact ⟨rfl, rfl, rfl, answers, rfl, hanswers⟩

end Install

end Splice
