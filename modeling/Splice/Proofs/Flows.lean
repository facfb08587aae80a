import Splice.Proofs.Rows
/-!
# Flows

A flow is one proxied connection as the bypass sees it: a socket that connects
from `start` to `origin`, and the socket that is accepted in its stead and has
`start` as its peer. Flows may share where they go and who serves them, but not
where they start. Tables that only flows have written to hold two rows for each
flow at most, so with two places a flow nothing is ever refused.
-/

namespace Splice

variable {S : Type}

structure Flow where
  /-- Own endpoint of the socket that connects. -/
  start : Endpoint
  /-- Where it connects to. -/
  origin : Endpoint
  /-- Own endpoint of the socket that is accepted. -/
  service : Endpoint

namespace Flow

/-- The tuple of the socket that connects. -/
def initiator (f : Flow) : Tuple := ⟨f.start, f.origin⟩

/-- The tuple of the socket that is accepted. -/
def acceptor (f : Flow) : Tuple := ⟨f.service, f.start⟩

/-- One of the flow's two tuples. -/
def Has (f : Flow) (t : Tuple) : Prop := t = f.initiator ∨ t = f.acceptor

/-- One of the tuple's endpoints is where the flow starts. -/
def Marks (f : Flow) (t : Tuple) : Prop := t.own = f.start ∨ t.peer = f.start

theorem Has.marks {f : Flow} {t : Tuple} (h : f.Has t) : f.Marks t := by
  rcases h with rfl | rfl
  · exact .inl rfl
  · exact .inr rfl

/-- The event is of one of the flow's sockets: only its initiator connects and
only its acceptor is accepted. -/
def Owns (f : Flow) : Event S → Prop
  | .connected s => s.tuple = f.initiator
  | .accepted s => s.tuple = f.acceptor
  | .stateChanged s _ => f.Has s.tuple
  | .message own => f.Has own
  | .egress frame => ∃ t, Frame.tuple? frame = .ok t ∧ f.Has t

/-! ## What the events of a flow are about -/

variable {f : Flow} {m : Moment S} {t : Tuple} {socket : S}

theorem Owns.offers (h : f.Owns m.event) (ho : m.Offers t socket) : f.Has t := by
  unfold Moment.Offers at ho
  split at ho
  · rename_i s he
    rw [he] at h
    exact .inl (ho.2.1 ▸ h)
  · rename_i s he
    rw [he] at h
    exact .inr (ho.2.1 ▸ h)
  · exact ho.elim

theorem Owns.remembers (h : f.Owns m.event) (hr : m.Remembers t) : t = f.initiator := by
  unfold Moment.Remembers at hr
  split at hr
  · rename_i s he
    rw [he] at h
    exact hr.2.1 ▸ h
  · exact hr.elim

theorem Owns.claims {i a : Tuple} (h : f.Owns m.event) (hc : m.Claims i a) :
    a = f.acceptor ∧ i.own = f.start ∧ m.tables.pending.get? f.start = some i.peer := by
  unfold Moment.Claims at hc
  split at hc
  · rename_i s he
    rw [he] at h
    obtain ⟨-, rfl, ho, hp⟩ := hc
    have ha : s.tuple = f.acceptor := h
    rw [ha] at ho hp
    exact ⟨ha, ho, hp⟩
  · exact hc.elim

theorem Owns.closes {e : Event S} (h : f.Owns e) (hc : e.Closes t) : f.Has t := by
  unfold Event.Closes at hc
  split at hc
  · exact hc.2.2 ▸ h
  · exact hc.elim

theorem Owns.sends {e : Event S} (h : f.Owns e) (hs : e.Sends t) : f.Has t := by
  unfold Event.Sends at hs
  split at hs
  · exact hs ▸ h
  · exact hs.elim

theorem Owns.frames {e : Event S} (h : f.Owns e) (hf : e.Frames t) : f.Has t := by
  unfold Event.Frames at hf
  split at hf
  · obtain ⟨u, hu, h⟩ := h
    rw [hf] at hu
    cases hu
    exact h
  · exact hf.elim

end Flow

/-! ## Tables of flows -/

section Flows
variable {n : Nat} (flows : Fin n → Flow)

/-- No flow starts at an endpoint of another. -/
def Apart : Prop :=
  ∀ i j, i ≠ j →
    (flows i).start ≠ (flows j).start ∧ (flows i).start ≠ (flows j).origin ∧ (flows i).start ≠ (flows j).service

/-- All rows are the flows', and a flow's proxy rows point at each other. -/
structure Holds (capacity : Nat) (T : Tables S) : Prop where
  sized : T.Sized capacity
  pending : ∀ l r, T.pending.get? l = some r → ∃ i, l = (flows i).start ∧ r = (flows i).origin
  proxy : ∀ k e, T.proxy.get? k = some e → ∃ i,
    (k = (flows i).initiator ∧ e.redirect = (flows i).acceptor) ∨
      (k = (flows i).acceptor ∧ e.redirect = (flows i).initiator)
  redirect : ∀ k socket, T.redirect.get? k = some socket → ∃ i, (flows i).Has k

/-- The keys that flows can have in the proxy and the redirect table. -/
def flowKeys : List Tuple := (List.finRange n).flatMap fun i => [(flows i).initiator, (flows i).acceptor]

/-- The keys that flows can have among the pending origins. -/
def flowStarts : List Endpoint := (List.finRange n).map fun i => (flows i).start

theorem length_flowKeys : (flowKeys flows).length = 2 * n := by
  simp [flowKeys, List.length_flatMap, Nat.mul_comm]

theorem length_flowStarts : (flowStarts flows).length = n := by simp [flowStarts]

variable {flows} {capacity : Nat} {T : Tables S} {m : Moment S} {i : Fin n} {k : Tuple}

theorem mem_flowKeys (h : (flows i).Has k) : k ∈ flowKeys flows := by
  refine List.mem_flatMap.2 ⟨i, List.mem_finRange i, ?_⟩
  rcases h with rfl | rfl <;> simp

theorem mem_flowStarts : (flows i).start ∈ flowStarts flows := List.mem_map.2 ⟨i, List.mem_finRange i, rfl⟩

theorem Apart.start_inj (h : Apart flows) {i j : Fin n} (hs : (flows i).start = (flows j).start) : i = j :=
  Decidable.byContradiction fun hn => (h i j hn).1 hs

/-- A flow has no tuple that another marks. -/
theorem Apart.not_marks (h : Apart flows) {i j : Fin n} (hn : i ≠ j) (hk : (flows j).Has k) :
    ¬(flows i).Marks k := by
  obtain ⟨hs, ho, hv⟩ := h i j hn
  rcases hk with rfl | rfl <;> rintro (hm | hm)
  · exact hs hm.symm
  · exact ho hm.symm
  · exact hv hm.symm
  · exact hs hm.symm

theorem Apart.has_inj (h : Apart flows) {i j : Fin n} (hi : (flows i).Has k) (hj : (flows j).Has k) : i = j :=
  Decidable.byContradiction fun hn => h.not_marks hn hj hi.marks

namespace Holds

/-! ### Places enough -/

section Room
variable (h : Holds flows capacity T)
include h

theorem mem_pending {l : Endpoint} (hl : (T.pending.get? l).isSome) : l ∈ flowStarts flows := by
  obtain ⟨r, hr⟩ := Option.isSome_iff_exists.1 hl
  obtain ⟨i, rfl, -⟩ := h.pending l r hr
  exact mem_flowStarts

theorem mem_proxy (hk : (T.proxy.get? k).isSome) : k ∈ flowKeys flows := by
  obtain ⟨e, he⟩ := Option.isSome_iff_exists.1 hk
  obtain ⟨i, ⟨rfl, -⟩ | ⟨rfl, -⟩⟩ := h.proxy k e he
  · exact mem_flowKeys (.inl rfl)
  · exact mem_flowKeys (.inr rfl)

theorem mem_redirect (hk : (T.redirect.get? k).isSome) : k ∈ flowKeys flows := by
  obtain ⟨socket, hs⟩ := Option.isSome_iff_exists.1 hk
  obtain ⟨i, hi⟩ := h.redirect k socket hs
  exact mem_flowKeys hi

variable (hcap : 2 * n ≤ capacity)
include hcap

theorem room_pending (i : Fin n) : T.pending.HasRoom (flows i).start := by
  obtain ⟨hc, hcapacity⟩ := h.sized.pending
  refine hc.hasRoom (fun l hl => h.mem_pending hl) mem_flowStarts ?_
  rw [length_flowStarts]
  omega

theorem room_redirect (hk : (flows i).Has k) : T.redirect.HasRoom k := by
  obtain ⟨hc, hcapacity⟩ := h.sized.redirect
  refine hc.hasRoom (fun j hj => h.mem_redirect hj) (mem_flowKeys hk) ?_
  rw [length_flowKeys, hcapacity]
  exact hcap

theorem pair_ok (i : Fin n) : (T.proxy.insertPair (flows i).initiator (flows i).acceptor).2 = .ok () := by
  obtain ⟨hc, hcapacity⟩ := h.sized.proxy
  have hl : (flowKeys flows).length ≤ T.proxy.capacity := by
    rw [length_flowKeys, hcapacity]
    exact hcap
  have ha : T.proxy.HasRoom (flows i).initiator := hc.hasRoom (fun j hj => h.mem_proxy hj) (mem_flowKeys (.inl rfl)) hl
  have hb : (T.proxy.put (flows i).initiator (.fresh (flows i).acceptor)).HasRoom (flows i).acceptor := by
    refine (hc.put ha _).hasRoom (fun j hj => ?_) (mem_flowKeys (.inr rfl)) hl
    rw [Table.get?_put] at hj
    split at hj
    · rename_i hij
      exact hij ▸ mem_flowKeys (.inl rfl)
    · exact h.mem_proxy hj
  rw [Table.insertPair_of_room ha hb]

end Room

/-! ### What a flow finds -/

section Apart
variable (h : Holds flows capacity T) (apart : Apart flows)
include h apart

theorem origin_of_pending {r : Endpoint} (hr : T.pending.get? (flows i).start = some r) : r = (flows i).origin := by
  obtain ⟨j, hs, rfl⟩ := h.pending _ _ hr
  rw [apart.start_inj hs]

/-- A flow's proxy row points at its other tuple. -/
theorem partner {e : ProxyEntry} (he : T.proxy.get? k = some e) :
    (k = (flows i).initiator → e.redirect = (flows i).acceptor) ∧
      (k = (flows i).acceptor → e.redirect = (flows i).initiator) := by
  obtain ⟨j, hj⟩ := h.proxy k e he
  have hj' : (flows j).Has k := hj.imp And.left And.left
  -- A flow's two tuples may be one and the same, and then it is its own partner.
  constructor
  · intro hi
    obtain rfl := apart.has_inj (.inl hi) hj'
    rcases hj with ⟨-, hp⟩ | ⟨hk, hp⟩
    · exact hp
    · rw [hp, ← hi, hk]
  · intro hi
    obtain rfl := apart.has_inj (.inr hi) hj'
    rcases hj with ⟨hk, hp⟩ | ⟨-, hp⟩
    · rw [hp, ← hi, hk]
    · exact hp

/-- An accept of a flow claims the origin of the flow's own initiator. -/
theorem claims_eq {a b : Tuple} {m : Moment S} (hm : m.tables = T) (ho : (flows i).Owns m.event) (hc : m.Claims a b) :
    a = (flows i).initiator ∧ b = (flows i).acceptor := by
  obtain ⟨hb, hs, hr⟩ := ho.claims hc
  rw [hm] at hr
  obtain ⟨own, peer⟩ := a
  simp only at hs hr
  exact ⟨by rw [hs, h.origin_of_pending apart hr, Flow.initiator], hb⟩

/-! ### Along a run -/

theorem after {m : Moment S} (hm : m.tables = T) (ho : (flows i).Owns m.event) : Holds flows capacity m.after := by
  subst hm
  refine ⟨Moment.sized_after h.sized, ?_, ?_, ?_⟩
  · intro l r hl
    rcases Moment.after_pending.1 hl with ⟨hr, -⟩ | ⟨-, hl⟩
    · have ht := ho.remembers hr
      cases ht
      exact ⟨i, rfl, rfl⟩
    · exact h.pending l r hl
  · intro k e he
    rcases Moment.proxy_of_some he with ⟨p, ⟨hc, -⟩ | ⟨hc, -⟩, rfl⟩ | ⟨-, e', he', rfl⟩
    · exact ⟨i, .inl (h.claims_eq apart rfl ho hc)⟩
    · exact ⟨i, .inr (h.claims_eq apart rfl ho hc).symm⟩
    · rw [Moment.redirect_moves]
      exact h.proxy k e' he'
  · intro k socket hk
    rcases Moment.after_redirect.1 hk with ⟨hr, -⟩ | ⟨-, -, hk⟩
    · exact ⟨i, ho.offers hr⟩
    · exact h.redirect k socket hk

end Apart

theorem empty (capacity : Nat) : Holds flows capacity (Tables.empty capacity : Tables S) := by
  refine ⟨Tables.sized_empty capacity, ?_, ?_, ?_⟩
  · intro l r hl
    simp [Tables.empty] at hl
  · intro k e he
    simp [Tables.empty] at he
  · intro k socket hk
    simp [Tables.empty] at hk

end Holds

end Flows

end Splice
