import Splice.Proofs.Calls
/-!
# Writes that may be refused

The lifecycle program settles what it writes before it writes anything: an event
comes to a list of writes, each then tried by itself (`maps_sockOps_eq_attempts`).
`Carries` lets every insert of such a list be done or refused at will. Whatever
the limits of the maps are, and whenever they change, what the program leaves is
one such way to carry its writes out.
-/

namespace Splice.Kernel

variable {S : Type}

/-! ## Writes -/

/-- A write of the lifecycle program. -/
inductive Write (S : Type) where
  | addPending (l r : RawEndpoint)
  | putProxy (k : RawTuple) (entry : RawEntry)
  | putRedirect (k : RawTuple) (socket : S)
  | erasePending (l : RawEndpoint)
  | eraseProxy (k : RawTuple)

/-- A map may refuse the write; a removal is never refused. -/
def Write.isInsert : Write S → Bool
  | .addPending _ _ | .putProxy _ _ | .putRedirect _ _ => true
  | .erasePending _ | .eraseProxy _ => false

namespace Maps

/-- Does a write. An origin is added only where none is pending. -/
def perform (m : Maps S) : Write S → Maps S
  | .addPending l r => { m with pending := if l ∈ m.pending then m.pending else m.pending.insert l r }
  | .putProxy k entry => { m with proxy := m.proxy.insert k entry }
  | .putRedirect k socket => { m with redirect := m.redirect.insert k socket }
  | .erasePending l => { m with pending := m.pending.erase l }
  | .eraseProxy k => { m with proxy := m.proxy.erase k }

/-- Tries a write under the limit of the maps. -/
def attempt (m : Maps S) : Write S → Maps S
  | .addPending l r => { m with pending := addRow m.limit m.pending l r }
  | .putProxy k entry => { m with proxy := putRow m.limit m.proxy k entry }
  | .putRedirect k socket => m.register k socket
  | .erasePending l => { m with pending := m.pending.erase l }
  | .eraseProxy k => { m with proxy := m.proxy.erase k }

/-- The writes of a pair: both rows, the accepted socket, and the origin that is
used up. -/
def pairWrites (key : RawTuple) (socket : S) (origin : RawEndpoint) : List (Write S) :=
  [.putProxy ⟨key.peer, origin⟩ ⟨key, ProxyState.init.flag⟩, .putProxy key ⟨⟨key.peer, origin⟩, ProxyState.init.flag⟩,
    .putRedirect key socket, .erasePending key.peer]

/-- What the lifecycle program writes for an event, in order. -/
def writes (m : Maps S) (c : SocketContext S) : List (Write S) :=
  if c.isIpv4 = false then []
  else if c.op = opConnected then
    if c.key.own.ip4 = sidecarWord then [.putRedirect c.key c.socket]
    else if c.key.own.ip4 = c.key.peer.ip4 then []
    else [.addPending c.key.own c.key.peer, .putRedirect c.key c.socket]
  else if c.op = opAccepted then
    (if c.key.peer.ip4 = sidecarWord then [.putRedirect c.key c.socket] else []) ++
      (m.pending[c.key.peer]?).elim [] (pairWrites c.key c.socket)
  else if c.op = opState ∧ c.argument = tcpClose then [.eraseProxy c.key, .erasePending c.key.own]
  else []

/-- The program tries the writes of its event one after another. -/
theorem maps_sockOps_eq_attempts (m : Maps S) (c : SocketContext S) :
    (sockOps m c).maps = (m.writes c).foldl attempt m := by
  rw [maps_sockOps, writes]
  cases hi : c.isIpv4
  · rfl
  rw [if_pos rfl, if_neg (by simp), track]
  split
  · unfold connected
    split
    · rfl
    · split <;> rfl
  split
  · unfold accepted
    by_cases hs : c.key.peer.ip4 = sidecarWord
    · simp only [if_pos hs]
      have hp : (m.register c.key c.socket).pending[c.key.peer]? = m.pending[c.key.peer]? := rfl
      rw [hp]
      cases m.pending[c.key.peer]? <;> rfl
    · simp only [if_neg hs]
      cases m.pending[c.key.peer]? <;> rfl
  · split <;> rfl

/-- A try is the write, or nothing where the map refuses it. -/
theorem attempt_cases (m : Maps S) (w : Write S) :
    m.attempt w = m.perform w ∨ w.isInsert = true ∧ m.attempt w = m := by
  cases w with
  | addPending l r =>
    simp only [attempt, perform, addRow, putRow]
    split
    · exact .inl rfl
    · split
      · exact .inl rfl
      · exact .inr ⟨rfl, rfl⟩
  | putProxy k entry =>
    simp only [attempt, perform, putRow]
    split
    · exact .inl rfl
    · exact .inr ⟨rfl, rfl⟩
  | putRedirect k socket =>
    simp only [attempt, perform, register, putRow]
    split
    · exact .inl rfl
    · exact .inr ⟨rfl, rfl⟩
  | erasePending l => exact .inl rfl
  | eraseProxy k => exact .inl rfl

end Maps

/-! ## Carrying writes out -/

/-- Writes are carried out in order, any insert among them done or refused. -/
inductive Carries : Maps S → List (Write S) → Maps S → Prop
  | nil {m} : Carries m [] m
  | done {m m' w ws} : Carries (m.perform w) ws m' → Carries m (w :: ws) m'
  | refused {m m' w ws} : w.isInsert = true → Carries m ws m' → Carries m (w :: ws) m'

namespace Carries

variable {m m' : Maps S} {ws : List (Write S)}

theorem attempts (m : Maps S) (ws : List (Write S)) : Carries m ws (ws.foldl Maps.attempt m) := by
  induction ws generalizing m with
  | nil => exact .nil
  | cons w ws ih =>
    rw [List.foldl_cons]
    rcases m.attempt_cases w with h | ⟨hw, h⟩ <;> rw [h]
    · exact .done (ih _)
    · exact .refused hw (ih m)

/-- What each of the writes keeps holds however they are carried out. -/
theorem keeps {P : Maps S → Prop} (h : Carries m ws m') (hw : ∀ w ∈ ws, ∀ m, P m → P (m.perform w)) (hm : P m) :
    P m' := by
  induction h with
  | nil => exact hm
  | done _ ih =>
    obtain ⟨hw, hws⟩ := List.forall_mem_cons.1 hw
    exact ih hws (hw _ hm)
  | refused _ _ ih => exact ih (List.forall_mem_cons.1 hw).2 hm

/-- Removals are carried out in one way only. -/
theorem eq_of_removals (h : Carries m ws m') (hw : ∀ w ∈ ws, w.isInsert = false) : m' = ws.foldl Maps.perform m := by
  induction h with
  | nil => rfl
  | done _ ih => exact ih (List.forall_mem_cons.1 hw).2
  | refused hi _ _ =>
    rw [(List.forall_mem_cons.1 hw).1] at hi
    cases hi

end Carries

/-! ## Runs in which inserts are refused -/

/-- The maps a call can leave when any insert of the lifecycle program may be
refused. The other programs only write through to rows that are there. -/
def Maps.Steps (m : Maps S) : Call S → Maps S → Prop
  | .lifecycle c, m' => Carries m (m.writes c) m'
  | c, m' => m' = (m.call c).maps

theorem Maps.steps_call (m : Maps S) (c : Call S) : m.Steps c (m.call c).maps := by
  cases c with
  | lifecycle c =>
    rw [show (m.call (.lifecycle c)).maps = _ from m.maps_sockOps_eq_attempts c]
    exact Carries.attempts m _
  | message | egress | socketDied | setTracing | setLimit => rfl

/-- The maps can be reached from empty ones through the moments `h`, whatever
inserts were refused on the way. -/
inductive Reaches : List (Moment S) → Maps S → Prop
  | empty : Reaches [] Maps.empty
  | step {h m c m'} : Reaches h m → m.Steps c m' → Reaches (h ++ [⟨m, c⟩]) m'

/-- The programs themselves refuse only what the limits of the moment refuse. -/
theorem reaches_callAll (cs : List (Call S)) : Reaches (Maps.empty.moments cs) (Maps.empty.callAll cs) := by
  induction cs using List.reverseRecOn with
  | nil => exact .empty
  | append_singleton cs c ih =>
    rw [Maps.moments_snoc, Maps.callAll_snoc]
    exact ih.step (Maps.steps_call _ c)

end Splice.Kernel
