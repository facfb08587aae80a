import Mathlib.Order.Lattice
import Splice.Proofs.History
/-!
# Rows only rise

The data path writes to the proxy table in two ways: a data unit enables a row
and a frame disables one. In the order `init`, `enabled`, `disabled` each takes
the row to the join of its state and the state asked for, so of a list of
writes only what it asks of each row counts, not its order, and no row ever
falls back. Runs of data units and frames are such lists.
-/

namespace Splice

/-! ## The order of states -/

namespace ProxyState

/-- How far a row in the state has come. -/
def rank : ProxyState → Nat
  | .init => 0
  | .enabled => 1
  | .disabled => 2

theorem rank_injective : Function.Injective rank := by
  intro s s' h
  cases s <;> cases s' <;> first | rfl | cases h

instance : LinearOrder ProxyState := LinearOrder.lift' rank rank_injective

theorem init_le (s : ProxyState) : init ≤ s := Nat.zero_le s.rank

theorem disabled_le {s : ProxyState} : disabled ≤ s ↔ s = disabled := by
  cases s <;> decide

theorem ite_or (p q : Prop) [Decidable p] [Decidable q] (s : ProxyState) :
    (if p ∨ q then s else init) = max (if p then s else init) (if q then s else init) := by
  by_cases hp : p <;> by_cases hq : q <;> simp [hp, hq, init_le]

end ProxyState

namespace ProxyEntry

variable (e : ProxyEntry)

/-- The row with its state taken up to `s`, if it was not that far. -/
def raise (s : ProxyState) : ProxyEntry := { e with state := max e.state s }

@[simp] theorem raise_init : e.raise .init = e := by
  rw [raise, max_eq_left (ProxyState.init_le e.state)]

theorem raise_raise (s s' : ProxyState) : (e.raise s).raise s' = e.raise (max s s') := by
  simp only [raise, max_assoc]

theorem raise_enabled : e.raise .enabled = e.enabled := by
  obtain ⟨p, s⟩ := e
  cases s <;> rfl

theorem raise_disabled : e.raise .disabled = e.disabled := by
  obtain ⟨p, s⟩ := e
  cases s <;> rfl

end ProxyEntry

/-! ## Lists of writes -/

/-- A write of the data path to the proxy table. -/
inductive Write where
  | enable (k : Tuple)
  | disable (k : Tuple)
deriving DecidableEq

namespace Write

/-- The state that some writes together ask of the row of `k`. -/
def asked (k : Tuple) (ws : List Write) : ProxyState :=
  max (if .enable k ∈ ws then .enabled else .init) (if .disable k ∈ ws then .disabled else .init)

theorem asked_cons (k : Tuple) (w : Write) (ws : List Write) : asked k (w :: ws) = max (asked k [w]) (asked k ws) := by
  simp only [asked, List.mem_cons, List.mem_nil_iff, or_false, ProxyState.ite_or]
  exact max_max_max_comm _ _ _ _

theorem asked_perm {ws ws' : List Write} (h : ws.Perm ws') (k : Tuple) : asked k ws = asked k ws' := by
  simp only [asked, h.mem_iff]

end Write

namespace Table

variable (t : ProxyTable)

/-- The table after a write. -/
def write : Write → ProxyTable
  | .enable k => (t.enable k).1
  | .disable k => (t.disable k).1

/-- The table after some writes, the earliest first. -/
def writes (ws : List Write) : ProxyTable := ws.foldl write t

/-- A write takes the row it names up to the state it asks for, and no other. -/
theorem get?_write (w : Write) (k : Tuple) : (t.write w).get? k = (t.get? k).map (·.raise (Write.asked k [w])) := by
  cases w with
  | enable j =>
    rw [write, get?_enable]
    by_cases hj : j = k
    · simp [Write.asked, hj, ProxyEntry.raise_enabled, ProxyState.init_le]
    · simp [Write.asked, hj, Ne.symm hj]
  | disable j =>
    rw [write, get?_disable]
    by_cases hj : j = k
    · simp [Write.asked, hj, ProxyEntry.raise_disabled, ProxyState.init_le]
    · simp [Write.asked, hj, Ne.symm hj]

/-- A row ends in the join of its state and all that was asked of it. -/
theorem get?_writes (ws : List Write) (k : Tuple) :
    (t.writes ws).get? k = (t.get? k).map (·.raise (Write.asked k ws)) := by
  induction ws generalizing t with
  | nil => simp [writes, Write.asked]
  | cons w ws ih =>
    have hraise : (·.raise (Write.asked k ws)) ∘ (·.raise (Write.asked k [w])) =
        fun e : ProxyEntry => e.raise (Write.asked k (w :: ws)) := by
      funext e
      rw [Function.comp_apply, ProxyEntry.raise_raise, Write.asked_cons k w ws]
    rw [show t.writes (w :: ws) = (t.write w).writes ws from rfl, ih, get?_write, Option.map_map, hraise]

theorem name_write (w : Write) : (t.write w).name = t.name := by
  cases w <;> exact name_update t _ _

theorem capacity_write (w : Write) : (t.write w).capacity = t.capacity := by
  cases w <;> exact capacity_update t _ _

theorem size_write (w : Write) : (t.write w).size = t.size := by
  cases w <;> exact size_update t _ _

/-- Nothing but rows is written. -/
theorem frame_writes (ws : List Write) :
    (t.writes ws).name = t.name ∧ (t.writes ws).capacity = t.capacity ∧ (t.writes ws).size = t.size := by
  induction ws generalizing t with
  | nil => exact ⟨rfl, rfl, rfl⟩
  | cons w ws ih =>
    obtain ⟨hn, hc, hs⟩ := ih (t.write w)
    exact ⟨hn.trans (t.name_write w), hc.trans (t.capacity_write w), hs.trans (t.size_write w)⟩

/-- Writes in another order leave the same table. -/
theorem writes_perm {ws ws' : List Write} (h : ws.Perm ws') : t.writes ws = t.writes ws' := by
  obtain ⟨hn, hc, hs⟩ := t.frame_writes ws
  obtain ⟨hn', hc', hs'⟩ := t.frame_writes ws'
  refine ext_get? (hn.trans hn'.symm) (hc.trans hc'.symm) (hs.trans hs'.symm) fun k => ?_
  rw [get?_writes, get?_writes, Write.asked_perm h]

/-- A row that some writes find is there afterwards, in the same state or a later one. -/
theorem le_state_of_writes {ws : List Write} {k : Tuple} {e : ProxyEntry} (h : t.get? k = some e) :
    ∃ e', (t.writes ws).get? k = some e' ∧ e.state ≤ e'.state := by
  refine ⟨e.raise (Write.asked k ws), ?_, le_max_left _ _⟩
  rw [get?_writes, h]
  rfl

end Table

/-! ## Data units and frames -/

/-- What the data path meets: a data unit of a socket, or a frame. -/
inductive Traffic where
  | message (own : Tuple)
  | egress (frame : Octets)
deriving DecidableEq

namespace Traffic

def event {S : Type} : Traffic → Event S
  | .message own => .message own
  | .egress frame => .egress frame

/-- It is a frame of the socket of `k`. -/
def isFrameOf (k : Tuple) : Traffic → Bool
  | .message _ => false
  | .egress frame =>
    match Frame.tuple? frame with
    | .error _ => false
    | .ok t => t == k

/-- The write that its handler makes, if it makes one. -/
def write? (sidecar : Ipv4) : Traffic → Option Write
  | .message own => if own.touches sidecar then none else some (.enable own)
  | .egress frame =>
    match Frame.tuple? frame with
    | .error _ => none
    | .ok t => some (.disable t)

theorem write?_eq_enable {sidecar : Ipv4} {k : Tuple} {c : Traffic} :
    c.write? sidecar = some (.enable k) ↔ c = .message k ∧ k.touches sidecar = false := by
  cases c with
  | message own =>
    simp only [write?, message.injEq]
    constructor
    · intro h
      split at h
      · cases h
      · rename_i ht
        cases h
        exact ⟨rfl, by simpa using ht⟩
    · rintro ⟨rfl, h⟩
      simp [h]
  | egress frame => cases h : Frame.tuple? frame <;> simp [write?, h]

theorem write?_eq_disable {sidecar : Ipv4} {k : Tuple} {c : Traffic} :
    c.write? sidecar = some (.disable k) ↔ c.isFrameOf k = true := by
  cases c with
  | message own => simp [write?, isFrameOf]
  | egress frame => cases h : Frame.tuple? frame <;> simp [write?, isFrameOf, h]

theorem asked_writes (sidecar : Ipv4) (k : Tuple) (cs : List Traffic) :
    Write.asked k (cs.filterMap (write? sidecar)) =
      max (if .message k ∈ cs ∧ k.touches sidecar = false then .enabled else .init)
        (if ∃ c ∈ cs, c.isFrameOf k = true then .disabled else .init) := by
  have he : Write.enable k ∈ cs.filterMap (write? sidecar) ↔ Traffic.message k ∈ cs ∧ k.touches sidecar = false := by
    simp only [List.mem_filterMap, write?_eq_enable]
    constructor
    · rintro ⟨_, hc, rfl, hk⟩
      exact ⟨hc, hk⟩
    · rintro ⟨hc, hk⟩
      exact ⟨_, hc, rfl, hk⟩
  have hd : Write.disable k ∈ cs.filterMap (write? sidecar) ↔ ∃ c ∈ cs, c.isFrameOf k = true := by
    simp only [List.mem_filterMap, write?_eq_disable]
  simp only [Write.asked, he, hd]

end Traffic

namespace Bypass

variable {S : Type}

/-- The tables after a data unit or a frame: one write, or none. -/
theorem tables_step_traffic (b : Bypass S) (c : Traffic) :
    (b.step c.event).tables.pending = b.tables.pending ∧ (b.step c.event).tables.redirect = b.tables.redirect ∧
      (b.step c.event).tables.proxy = b.tables.proxy.writes (c.write? b.sidecar).toList := by
  cases c with
  | message own =>
    refine ⟨Tables.pending_onMessage b.tables b.sidecar own, Tables.redirect_onMessage b.tables b.sidecar own, ?_⟩
    refine (Tables.proxy_onMessage b.tables b.sidecar own).trans ?_
    simp only [Traffic.write?]
    split <;> rfl
  | egress frame =>
    have h : (b.step (.egress frame)).tables = (b.tables.onEgress frame).tables := rfl
    simp only [Traffic.event, Traffic.write?, h, Tables.tables_onEgress]
    cases Frame.tuple? frame <;> exact ⟨rfl, rfl, rfl⟩

/-- A run of data units and frames is a list of writes to the proxy table. -/
theorem tables_run_traffic (b : Bypass S) (cs : List Traffic) :
    let T := (b.run (cs.map Traffic.event)).tables
    T.pending = b.tables.pending ∧ T.redirect = b.tables.redirect ∧
      T.proxy = b.tables.proxy.writes (cs.filterMap (Traffic.write? b.sidecar)) := by
  induction cs generalizing b with
  | nil => exact ⟨rfl, rfl, rfl⟩
  | cons c cs ih =>
    obtain ⟨hp, hr, hx⟩ := b.tables_step_traffic c
    obtain ⟨hp', hr', hx'⟩ := ih (b.step c.event)
    refine ⟨hp'.trans hp, hr'.trans hr, hx'.trans ?_⟩
    -- The sidecar stays the same, so what the rest writes does not depend on this step.
    rw [hx, sidecar_step, List.filterMap_cons]
    cases c.write? b.sidecar <;> rfl

end Bypass

/-- Data units and frames in any order leave the same tables, and so do the
writes that handlers running at once make in any order. Each row keeps its key
and its partner and ends in the join of its state, of `enabled` where a data
unit of its socket was met off the sidecar, and of `disabled` where a frame was. -/
theorem traffic_joins {S : Type} (b : Bypass S) {cs cs' : List Traffic} (hcs : cs.Perm cs') (t : ProxyTable)
    {ws ws' : List Write} (hws : ws.Perm ws') :
    let T := (b.run (cs.map Traffic.event)).tables
    let T' := (b.run (cs'.map Traffic.event)).tables
    (T.pending = T'.pending ∧ T.proxy = T'.proxy ∧ T.redirect = T'.redirect) ∧
      T.pending = b.tables.pending ∧ T.redirect = b.tables.redirect ∧
      (∀ k, T.proxy.get? k = (b.tables.proxy.get? k).map fun e =>
        ⟨e.redirect, max e.state (max (if .message k ∈ cs ∧ k.touches b.sidecar = false then .enabled else .init)
          (if ∃ c ∈ cs, c.isFrameOf k = true then .disabled else .init))⟩) ∧
      t.writes ws = t.writes ws' ∧
      (∀ k, (t.writes ws).get? k = (t.get? k).map fun e =>
        ⟨e.redirect, max e.state (max (if .enable k ∈ ws then .enabled else .init)
          (if .disable k ∈ ws then .disabled else .init))⟩) ∧
      ∀ k e, t.get? k = some e → ∃ e', (t.writes ws).get? k = some e' ∧
        (e.state = .disabled → e'.state = .disabled) ∧ (e.state = .enabled → e'.state ≠ .init) := by
  intro T T'
  obtain ⟨hp, hr, hx⟩ := b.tables_run_traffic cs
  obtain ⟨hp', hr', hx'⟩ := b.tables_run_traffic cs'
  refine ⟨⟨hp.trans hp'.symm, ?_, hr.trans hr'.symm⟩, hp, hr, fun k => ?_, t.writes_perm hws,
    fun k => t.get?_writes ws k, fun k e he => ?_⟩
  · rw [show T.proxy = _ from hx, show T'.proxy = _ from hx']
    exact b.tables.proxy.writes_perm (hcs.filterMap _)
  · rw [show T.proxy = _ from hx, Table.get?_writes, Traffic.asked_writes]
    rfl
  · obtain ⟨e', he', hle⟩ := t.le_state_of_writes he
    refine ⟨e', he', fun h => ?_, fun h hi => ?_⟩
    · rw [h, ProxyState.disabled_le] at hle
      exact hle
    · rw [h, hi] at hle
      exact absurd hle (by decide)

/-- A data unit and a frame of one socket, one before the other and the other way round. -/
theorem traffic_joins_on_race :
    let a : Tuple := ⟨⟨⟨10, 0, 0, 5⟩, 40000⟩, ⟨⟨10, 0, 0, 9⟩, 8080⟩⟩
    let p : Tuple := ⟨⟨⟨10, 0, 0, 5⟩, 15001⟩, a.own⟩
    let b : Bypass Nat := (Bypass.empty defaultSidecar 4).run
      [.connected ⟨.inet, a, 1⟩, .accepted ⟨.inet, p, 2⟩]
    let frame : Octets := [2, 0, 0, 0, 0, 2, 2, 0, 0, 0, 0, 1, 0x08, 0x00,
      0x45, 0, 0, 40, 0x12, 0x34, 0x40, 0, 64, 6, 0, 0, 10, 0, 0, 5, 10, 0, 0, 9,
      0x9c, 0x40, 0x1f, 0x90, 0, 0, 0, 1, 0, 0, 0, 1, 0x50, 0x18, 0xff, 0xff, 0, 0, 0, 0]
    let cs : List Traffic := [.message a, .egress frame]
    let cs' : List Traffic := [.egress frame, .message a]
    let T := (b.run (cs.map Traffic.event)).tables
    let T' := (b.run (cs'.map Traffic.event)).tables
    cs.Perm cs' ∧ [Write.enable a, .disable a].Perm [.disable a, .enable a] ∧ T.proxy = T'.proxy ∧
      T.proxy.get? a = some ⟨p, .disabled⟩ ∧
      b.tables.proxy.writes [.enable a, .disable a] = b.tables.proxy.writes [.disable a, .enable a] := by
  intro a p b frame cs cs' T T'
  have hcs : cs.Perm cs' := .swap _ _ _
  have hws : [Write.enable a, .disable a].Perm [.disable a, .enable a] := .swap _ _ _
  obtain ⟨⟨-, hx, -⟩, -, -, hrow, hwrites, -⟩ := traffic_joins b hcs b.tables.proxy hws
  exact ⟨hcs, hws, hx, (hrow a).trans (by decide +kernel), hwrites⟩

end Splice
