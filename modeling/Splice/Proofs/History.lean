import Splice.Proofs.Handlers
import Splice.Proofs.Since
/-!
# Histories

A `Moment` is an event together with the bypass that meets it, a history the
list of moments of a run. The predicates on events and moments say in the words
of the lifecycle what happened there: a socket established or closed, registered,
its origin recorded or released, its pair written or refused. `after_pending`,
`after_redirect` and the lemmas on `proxy` give every row after a moment from the
rows before it.
-/

namespace Splice

variable {S : Type}

/-! ## Events -/

namespace Event

/-- The socket of `t` has connected or been accepted, and speaks IPv4. -/
def Establishes (t : Tuple) : Event S → Prop
  | .connected s => s.isIpv4 = true ∧ s.tuple = t
  | .accepted s => s.isIpv4 = true ∧ s.tuple = t
  | _ => False

/-- The socket of `t` has closed, and speaks IPv4. -/
def Closes (t : Tuple) : Event S → Prop
  | .stateChanged s state => s.isIpv4 = true ∧ state = .close ∧ s.tuple = t
  | _ => False

instance (t : Tuple) : DecidablePred (Establishes t : Event S → Prop)
  | .connected s | .accepted s => inferInstanceAs (Decidable (s.isIpv4 = true ∧ s.tuple = t))
  | .stateChanged _ _ | .message _ | .egress _ => isFalse id

instance (t : Tuple) : DecidablePred (Closes t : Event S → Prop)
  | .stateChanged s state => inferInstanceAs (Decidable (s.isIpv4 = true ∧ state = .close ∧ s.tuple = t))
  | .connected _ | .accepted _ | .message _ | .egress _ => isFalse id

/-- The socket of `t` sends a data unit. -/
def Sends (t : Tuple) : Event S → Prop
  | .message own => own = t
  | _ => False

/-- A frame of the socket of `t` leaves by the wire. -/
def Frames (t : Tuple) : Event S → Prop
  | .egress frame => Frame.tuple? frame = .ok t
  | _ => False

end Event

/-! ## Moments -/

/-- An event and the bypass that meets it. -/
structure Moment (S : Type) where
  before : Bypass S
  event : Event S

namespace Moment

variable (m : Moment S)

/-- The tables when the event comes. -/
def tables : Tables S := m.before.tables

/-- The tables the handler leaves. -/
def after : Tables S := (m.before.step m.event).tables

/-- The handler offers `socket` to the redirect table as the owner of `t`. -/
def Offers (t : Tuple) (socket : S) : Prop :=
  match m.event with
  | .connected s =>
    s.isIpv4 = true ∧ s.tuple = t ∧ s.handle = socket ∧ (t.own.addr = m.before.sidecar ∨ t.own.addr ≠ t.peer.addr)
  | .accepted s =>
    s.isIpv4 = true ∧ s.tuple = t ∧ s.handle = socket ∧
      (t.peer.addr = m.before.sidecar ∨ ∃ origin, m.tables.pending.get? t.peer = some origin)
  | _ => False

/-- The redirect table takes `socket` as the owner of `t`. -/
def Registers (t : Tuple) (socket : S) : Prop :=
  m.Offers t socket ∧ ∃ T, m.tables.registerSocket t socket = .ok T

/-- The socket of `t` has connected and its destination is to be remembered. -/
def Remembers (t : Tuple) : Prop :=
  match m.event with
  | .connected s =>
    s.isIpv4 = true ∧ s.tuple = t ∧ t.own.addr ≠ m.before.sidecar ∧ t.own.addr ≠ t.peer.addr
  | _ => False

/-- The destination of the socket of `t` is now pending, and was not before. -/
def Records (t : Tuple) : Prop :=
  m.Remembers t ∧ ∃ T, m.tables.recordOrigin t.own t.peer = .ok (T, true)

/-- The socket of `acceptor` has been accepted and finds the origin that the
socket of `initiator` left pending. -/
def Claims (initiator acceptor : Tuple) : Prop :=
  match m.event with
  | .accepted s =>
    s.isIpv4 = true ∧ s.tuple = acceptor ∧ initiator.own = acceptor.peer ∧
      m.tables.pending.get? acceptor.peer = some initiator.peer
  | _ => False

/-- An accept claims the origin of `initiator` and writes the rows of the pair. -/
def Joins (initiator acceptor : Tuple) : Prop :=
  m.Claims initiator acceptor ∧ (m.tables.proxy.insertPair initiator acceptor).2 = .ok ()

/-- The socket of `k` is paired with that of `p`, in either role. -/
def Pairs (k p : Tuple) : Prop := m.Joins k p ∨ m.Joins p k

/-- An accept claims the origin of `k` and the proxy table refuses the pair. -/
def Refuses (k : Tuple) : Prop :=
  ∃ acceptor e, m.Claims k acceptor ∧ (m.tables.proxy.insertPair k acceptor).2 = .error e

end Moment

/-! ## Histories -/

namespace Bypass

/-- The moments of a run. -/
def history (b : Bypass S) : List (Event S) → List (Moment S)
  | [] => []
  | e :: es => ⟨b, e⟩ :: (b.step e).history es

@[simp] theorem sidecar_empty (sidecar : Ipv4) (capacity : Nat) : (empty sidecar capacity : Bypass S).sidecar = sidecar :=
  rfl

@[simp] theorem sidecar_step (b : Bypass S) (e : Event S) : (b.step e).sidecar = b.sidecar := rfl

theorem run_snoc (b : Bypass S) (es : List (Event S)) (e : Event S) : b.run (es ++ [e]) = (b.run es).step e := by
  simp [run]

theorem run_append (b : Bypass S) (es fs : List (Event S)) : b.run (es ++ fs) = (b.run es).run fs :=
  List.foldl_append

@[simp] theorem sidecar_run (b : Bypass S) (es : List (Event S)) : (b.run es).sidecar = b.sidecar := by
  induction es generalizing b with
  | nil => rfl
  | cons e es ih => exact (ih (b.step e)).trans (sidecar_step b e)

theorem history_snoc (b : Bypass S) (es : List (Event S)) (e : Event S) :
    b.history (es ++ [e]) = b.history es ++ [⟨b.run es, e⟩] := by
  induction es generalizing b with
  | nil => rfl
  | cons f es ih => simp only [List.cons_append, history, ih, run, List.foldl_cons]

/-- What every moment of a run keeps holds at the end if it held at the start. -/
theorem run_keeps {P : Tables S → Prop} (b : Bypass S) (es : List (Event S)) (hb : P b.tables)
    (hkeep : ∀ m ∈ b.history es, P m.tables → P m.after) : P (b.run es).tables := by
  induction es generalizing b with
  | nil => exact hb
  | cons e es ih =>
    apply ih (b.step e)
    · exact hkeep ⟨b, e⟩ List.mem_cons_self hb
    · intro m hm
      exact hkeep m (List.mem_cons_of_mem _ hm)

theorem after_run (b : Bypass S) (es : List (Event S)) (e : Event S) :
    (b.run (es ++ [e])).tables = (⟨b.run es, e⟩ : Moment S).after := by
  rw [run_snoc, Moment.after]

end Bypass

end Splice
