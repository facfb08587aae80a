import Splice.Proofs.Calls
import Splice.Proofs.DebugSlots
import Splice.Proofs.Handlers
/-!
# What the debug counter counts

An operator turns tracing on and off while data flows. The counter grows by one
with each data unit that is handed to another socket while tracing is on, and by
nothing else, so after any run it is the number of those units, as far as its word
holds it. This is said of the handlers, whose setting is a `Turn`'s, and of the
kernel programs, whose setting is what the slot holds.
-/

namespace Splice

variable {S : Type}

/-! ## The handlers and the operator -/

/-- A handler is called, or the operator sets tracing. -/
inductive Action (S : Type) where
  | event (e : Event S)
  | setTracing (on : Bool)

/-- Whether tracing was last turned on, if `on` tells this for the time before. -/
def Action.setting (on : Bool) : Action S → Bool
  | .event _ => on
  | .setTracing on => on

/-- An action, the bypass that meets it, and what tracing was last set to. -/
structure Turn (S : Type) where
  before : Bypass S
  tracing : Bool
  action : Action S

namespace Bypass

/-- The action hands a data unit to another socket. -/
def Redirects (b : Bypass S) : Action S → Prop
  | .event (.message own) => (b.tables.onMessage b.sidecar own).reply.isRedirect = true
  | _ => False

instance (b : Bypass S) : DecidablePred b.Redirects
  | .event (.message _) => inferInstanceAs (Decidable (_ = true))
  | .event (.connected _) | .event (.accepted _) | .event (.stateChanged _ _) | .event (.egress _) | .setTracing _ =>
    isFalse id

/-- The bypass after an action. -/
def act (b : Bypass S) : Action S → Bypass S
  | .event e => b.step e
  | .setTracing on => { b with tables := { b.tables with debug := b.tables.debug.setEnabled on } }

def actAll (b : Bypass S) (as : List (Action S)) : Bypass S := as.foldl act b

/-- The turns of some actions, where tracing was last set to `on`. -/
def turns (b : Bypass S) (on : Bool) : List (Action S) → List (Turn S)
  | [] => []
  | a :: as => ⟨b, on, a⟩ :: (b.act a).turns (a.setting on) as

/-- Nothing but a data unit and the operator reaches the debug slots. -/
theorem debug_step {b : Bypass S} {e : Event S} (h : ∀ own, e ≠ .message own) :
    (b.step e).tables.debug = b.tables.debug := by
  cases e with
  | connected s =>
    simp only [step, handle, Tables.tables_connected]
    split
    · rfl
    · split
      · rfl
      · split <;> rfl
  | accepted s =>
    simp only [step, handle, Tables.tables_accepted]
    split
    · rfl
    · split
      · split <;> rfl
      · rfl
  | stateChanged s state =>
    simp only [step, handle, Tables.tables_stateChanged]
    split <;> rfl
  | message own => exact absurd rfl (h own)
  | egress frame =>
    simp only [step, handle, Tables.tables_onEgress]
    split <;> rfl

/-- A data unit is counted if it is redirected while tracing is on. -/
theorem debug_act_event (b : Bypass S) (e : Event S) :
    (b.act (.event e)).tables.debug =
      if b.Redirects (.event e) ∧ b.tables.debug.isEnabled = true then b.tables.debug.count
      else b.tables.debug := by
  cases e with
  | message own => exact Tables.debug_onMessage b.tables b.sidecar own
  | connected | accepted | stateChanged | egress =>
    rw [if_neg (by rintro ⟨h, -⟩; exact h)]
    exact debug_step fun own h => by cases h

/-- Tracing is on if it was last turned on. -/
theorem isEnabled_act (b : Bypass S) (a : Action S) :
    (b.act a).tables.debug.isEnabled = a.setting b.tables.debug.isEnabled := by
  cases a with
  | event e =>
    rw [debug_act_event]
    split <;> rfl
  | setTracing on => exact Debug.isEnabled_setEnabled _ on

theorem packets_act (b : Bypass S) (a : Action S) :
    (b.act a).tables.debug.packets = b.tables.debug.packets +
      if b.tables.debug.isEnabled = true ∧ b.Redirects a then 1 else 0 := by
  cases a with
  | event e =>
    rw [debug_act_event]
    split
    · rename_i h
      rw [if_pos h.symm]
      rfl
    · rename_i h
      rw [if_neg fun h' => h h'.symm, UInt64.add_zero]
  | setTracing on =>
    rw [if_neg (by rintro ⟨-, h⟩; exact h), UInt64.add_zero]
    rfl

/-- A run adds to the counter the units that were redirected while tracing was on. -/
theorem packets_actAll (b : Bypass S) (as : List (Action S)) :
    (b.actAll as).tables.debug.packets = b.tables.debug.packets + .ofNat
      ((b.turns b.tables.debug.isEnabled as).countP fun x => x.tracing = true ∧ x.before.Redirects x.action) := by
  induction as generalizing b with
  | nil => exact (UInt64.add_zero _).symm
  | cons a as ih =>
    have h := ih (b.act a)
    rw [isEnabled_act, packets_act] at h
    rw [turns, List.countP_cons, Nat.add_comm, UInt64.ofNat_add, ← UInt64.add_assoc]
    refine h.trans ?_
    congr 2
    simp only [decide_eq_true_eq]
    split <;> rfl

end Bypass

/-! ## The kernel programs and the operator -/

namespace Kernel

/-- A message is handed to another socket. -/
def Moment.Redirects (x : Moment S) : Prop :=
  match x.call with
  | .message c => (redirectMessage x.before c).redirectedTo.isSome = true
  | _ => False

instance (x : Moment S) : Decidable x.Redirects :=
  match x with
  | ⟨_, .message _⟩ => inferInstanceAs (Decidable (_ = true))
  | ⟨_, .lifecycle _⟩ | ⟨_, .egress _⟩ | ⟨_, .socketDied _⟩ | ⟨_, .setTracing _⟩ | ⟨_, .setLimit _⟩ => isFalse id

namespace Maps

/-- The maps with zero slots. -/
def zeroed (m : Maps S) : Maps S := { m with tracing := 0, packets := 0 }

/-- A frame leaves the debug slots as they are. -/
theorem slots_classify (m : Maps S) (frame : Octets) :
    (classify m frame).maps.tracing = m.tracing ∧ (classify m frame).maps.packets = m.packets := by
  unfold classify
  split
  · exact ⟨rfl, rfl⟩
  · unfold disable
    split
    · exact ⟨rfl, rfl⟩
    · split <;> exact ⟨rfl, rfl⟩

/-- A call sets the first slot, or leaves it. -/
theorem tracing_call (m : Maps S) (c : Call S) :
    (m.call c).maps.tracing =
      match c with
      | .setTracing on => tracingWord on
      | _ => m.tracing := by
  cases c with
  | lifecycle c => exact (slots_sockOps m c).1
  | message c =>
    simp only [call, redirectMessage, maps_message]
  | egress frame => exact (m.slots_classify frame).1
  | socketDied | setTracing | setLimit => rfl

theorem packets_call (m : Maps S) (c : Call S) :
    (m.call c).maps.packets =
      m.packets + if m.tracing = 1 ∧ (⟨m, c⟩ : Moment S).Redirects then 1 else 0 := by
  cases c with
  | message c =>
    have hr : (⟨m, .message c⟩ : Moment S).Redirects ↔ (m.message c.key).redirectedTo.isSome = true := .rfl
    simp only [call, redirectMessage, maps_message, hr, and_comm]
    split
    · rfl
    · exact (UInt32.add_zero _).symm
  | lifecycle c =>
    rw [if_neg (by rintro ⟨-, h⟩; exact h), UInt32.add_zero]
    exact (slots_sockOps m c).2
  | egress frame =>
    rw [if_neg (by rintro ⟨-, h⟩; exact h), UInt32.add_zero]
    exact (m.slots_classify frame).2
  | socketDied | setTracing | setLimit =>
    rw [if_neg (by rintro ⟨-, h⟩; exact h), UInt32.add_zero]
    rfl

/-- A run adds to the second slot the messages that were handed on while the first was 1. -/
theorem packets_callAll (m : Maps S) (cs : List (Call S)) :
    (m.callAll cs).packets =
      m.packets + .ofNat ((m.moments cs).countP fun x => x.before.tracing = 1 ∧ x.Redirects) := by
  induction cs generalizing m with
  | nil => exact (UInt32.add_zero _).symm
  | cons c cs ih =>
    rw [moments, List.countP_cons, Nat.add_comm, UInt32.ofNat_add, ← UInt32.add_assoc]
    refine (ih (m.call c).maps).trans ?_
    rw [packets_call]
    congr 2
    simp only [decide_eq_true_eq]
    split <;> rfl

/-- The first slot is 0 or 1 for good once it is. -/
theorem tracing_callAll {m : Maps S} (h : m.tracing = 0 ∨ m.tracing = 1) (cs : List (Call S)) :
    (m.callAll cs).tracing = 0 ∨ (m.callAll cs).tracing = 1 := by
  induction cs generalizing m with
  | nil => exact h
  | cons c cs ih =>
    apply ih
    rw [tracing_call]
    cases c with
    | setTracing on => cases on <;> simp [tracingWord]
    | lifecycle | message | egress | socketDied | setLimit => exact h

end Maps

/-- Where the slot is 0 or 1, the operator and the program agree on whether tracing is on. -/
theorem tracingOn_iff {w : UInt32} (h : w = 0 ∨ w = 1) : tracingOn w = true ↔ w = 1 := by
  rcases h with rfl | rfl <;> decide

/-- The next message that is handed on is counted if tracing is on. -/
theorem counts_next_iff {m : Maps S} (h : m.tracing = 0 ∨ m.tracing = 1) {c : MessageContext}
    (hc : (redirectMessage m c).redirectedTo.isSome = true) :
    tracingOn m.tracing = true ↔ (redirectMessage m c).maps.packets = m.packets + 1 := by
  have hr : (⟨m, .message c⟩ : Moment S).Redirects := hc
  have hp : (redirectMessage m c).maps.packets = _ := m.packets_call (.message c)
  rw [tracingOn_iff h, hp]
  simp only [hr, and_true, UInt32.add_right_inj]
  split <;> simp_all

end Kernel

/-! ## Both together -/

/-- Whatever the handlers are called for and however the operator sets tracing in
between, the counter is the number of data units that were redirected while
tracing was last turned on, as far as 64 bits hold it, and no other call changes
it. In the same way the second slot of the kernel programs counts, in 32 bits, the
messages handed on while the first slot was 1. The first is 0 or 1; a process that
opens the pinned slots reads from them whether the next message that is handed on
will be counted, and can set it. -/
theorem counter_counts_traced_redirects :
    (∀ (sidecar : Ipv4) (capacity : Nat) (as : List (Action S)),
      let start : Bypass S := .empty sidecar capacity
      let b := start.actAll as
      b.tables.debug.packets.toNat =
          (start.turns false as).countP (fun x => x.tracing = true ∧ x.before.Redirects x.action) % UInt64.size ∧
        ∀ a, ¬b.Redirects a → (b.act a).tables.debug.packets = b.tables.debug.packets) ∧
      ∀ (m : Kernel.Maps S) (cs : List (Kernel.Call S)),
        let start := m.zeroed
        let e := start.callAll cs
        e.packets.toNat = (start.moments cs).countP (fun x => x.before.tracing = 1 ∧ x.Redirects) % UInt32.size ∧
          (e.tracing = 0 ∨ e.tracing = 1) ∧
          ∀ machine dir, Pins.Shows machine dir e.tracing e.packets →
            (∃ on, Pins.debugState machine dir = .ok (on, e.packets) ∧
              ∀ c, (Kernel.redirectMessage e c).redirectedTo.isSome = true →
                (on = true ↔ (Kernel.redirectMessage e c).maps.packets = e.packets + 1)) ∧
            ∀ on, ∃ after, Pins.setDebug machine dir on = .ok after ∧
              Pins.Shows after dir (e.setTracing on).tracing (e.setTracing on).packets := by
  refine ⟨fun sidecar capacity as => ⟨?_, ?_⟩, fun m cs => ?_⟩
  · rw [Bypass.packets_actAll]
    exact (congrArg UInt64.toNat (UInt64.zero_add _)).trans UInt64.toNat_ofNat'
  · intro a h
    rw [Bypass.packets_act, if_neg (not_and_of_not_right _ h), UInt64.add_zero]
  · intro start e
    have htracing : e.tracing = 0 ∨ e.tracing = 1 := Kernel.Maps.tracing_callAll (.inl rfl) cs
    refine ⟨?_, htracing, fun machine dir hshows => ⟨⟨_, hshows.debugState, ?_⟩, ?_⟩⟩
    · rw [Kernel.Maps.packets_callAll]
      exact (congrArg UInt32.toNat (UInt32.zero_add _)).trans UInt32.toNat_ofNat'
    · intro c hc
      exact Kernel.counts_next_iff htracing hc
    · intro on
      exact hshows.setDebug on

namespace PinnedSlots

/-- A message of the sidecar. -/
def message : Kernel.MessageContext := ⟨Kernel.sidecarWord, 0x0500000a, 8080, swapOctets 40000⟩

/-- The socket at its other end is registered. -/
def maps : Kernel.Maps Nat :=
  { (.empty : Kernel.Maps Nat) with redirect := Std.ExtTreeMap.empty.insert message.key.reversed 7 }

/-- Of three messages one is sent while tracing is on. -/
def calls : List (Kernel.Call Nat) :=
  [.message message, .setTracing true, .message message, .setTracing false, .message message, .setTracing true]

def array : Host.BpfMap :=
  ⟨Kernel.arrayKind, 4, 4, 2, [(Pins.slotKey 0, wordOctets 1), (Pins.slotKey 1, wordOctets 1)]⟩

/-- A machine on which the array is pinned. -/
def machine : Host.Machine :=
  { Host.Machine.fresh ⟨[], [([], .directory .bpf), (["DEBUG_MAP"], .file .bpf (.pin 0))], []⟩ false with maps := [array] }

end PinnedSlots

/-- One message is counted. The operator reads that, and that the next one will be. -/
theorem counter_counts_one_of_three :
    let e := PinnedSlots.maps.zeroed.callAll PinnedSlots.calls
    e.packets = 1 ∧ Pins.Shows PinnedSlots.machine "/" e.tracing e.packets ∧
      Pins.debugState PinnedSlots.machine "/" = .ok (true, 1) ∧
      (Kernel.redirectMessage e PinnedSlots.message).redirectedTo = some 7 ∧
      (Kernel.redirectMessage e PinnedSlots.message).maps.packets = 2 := by
  intro e
  have htracing : e.tracing = 1 := by decide +kernel
  have hpackets : e.packets = 1 := by decide +kernel
  have hopen : Pins.openDebug PinnedSlots.machine "/" = .ok (0, PinnedSlots.array) :=
    Pins.openMap_eq_ok.2 ⟨by decide +kernel, by decide +kernel, rfl, rfl⟩
  have hshows : Pins.Shows PinnedSlots.machine "/" e.tracing e.packets := by
    rw [htracing, hpackets]
    exact ⟨0, _, hopen, rfl, rfl, rfl, rfl⟩
  have hnext : (Kernel.redirectMessage e PinnedSlots.message).redirectedTo = some 7 := by decide +kernel
  obtain ⟨-, -, hread⟩ := counter_counts_traced_redirects.2 PinnedSlots.maps PinnedSlots.calls
  obtain ⟨⟨on, hstate, hcounts⟩, -⟩ := hread _ _ hshows
  have hon : on = true := by
    have h := hstate.symm.trans hshows.debugState
    rw [htracing] at h
    exact congrArg Prod.fst (Except.ok.inj h)
  refine ⟨hpackets, hshows, ?_, hnext, ?_⟩
  · rw [hstate, hon]
    exact congrArg (fun w => Except.ok (true, w)) hpackets
  · have hcounted := (hcounts _ (by rw [hnext]; rfl)).1 hon
    rw [hcounted]
    exact congrArg (· + 1) hpackets

end Splice
