import Splice.Proofs.Pairing
/-!
# Which way the rows face

Only a socket that connects away from its own address, and not from the
sidecar's, leaves a pending origin, and only a pending origin makes a pair. So of
the two sockets of a pair one connected outwards and is the peer of the other. No
row names its own key, no data unit comes back to its sender unless the sidecar
talks to itself, and an accept from the sidecar never finds an origin.
-/

namespace Splice

variable {S : Type} {sidecar : Ipv4} {T : Tables S} {m : Moment S} {t k p own target : Tuple} {socket : S}

namespace Tuple

/-- The socket connects away from its own address, and not from the sidecar's. -/
def Outbound (sidecar : Ipv4) (t : Tuple) : Prop := t.own.addr ≠ sidecar ∧ t.own.addr ≠ t.peer.addr

/-- One of the two sockets connects outwards and is the peer of the other. -/
def Faces (sidecar : Ipv4) (k p : Tuple) : Prop :=
  (p.peer = k.own ∧ k.Outbound sidecar) ∨ (k.peer = p.own ∧ p.Outbound sidecar)

theorem Outbound.own_ne_peer (h : t.Outbound sidecar) : t.own ≠ t.peer := by
  intro heq
  exact h.2 (congrArg Endpoint.addr heq)

theorem Faces.ne (h : k.Faces sidecar p) : p ≠ k := by
  rintro rfl
  rcases h with ⟨hpeer, hout⟩ | ⟨hpeer, hout⟩
  · exact hout.own_ne_peer hpeer.symm
  · exact hout.own_ne_peer hpeer.symm

end Tuple

/-! ## The rows of a run -/

/-- Every pending origin was left by a socket that connected outwards, and every
proxy row joins such a socket with one it is the peer of. -/
structure Tables.Oriented (sidecar : Ipv4) (T : Tables S) : Prop where
  pending : ∀ l r, T.pending.get? l = some r → (⟨l, r⟩ : Tuple).Outbound sidecar
  proxy : ∀ k entry, T.proxy.get? k = some entry → k.Faces sidecar entry.redirect

theorem Tables.oriented_empty (sidecar : Ipv4) (capacity : Nat) : (Tables.empty capacity : Tables S).Oriented sidecar := by
  constructor
  · intro l r h
    simp [Tables.empty] at h
  · intro k entry h
    simp [Tables.empty] at h

namespace Moment

theorem Records.outbound (h : m.Records t) : t.Outbound m.before.sidecar := by
  obtain ⟨h, -⟩ := h
  unfold Remembers at h
  split at h
  · exact h.2.2
  · exact h.elim

theorem Claims.outbound {initiator acceptor : Tuple} (hT : m.tables.Oriented sidecar)
    (h : m.Claims initiator acceptor) : initiator.Outbound sidecar :=
  hT.pending _ _ h.pending

theorem Pairs.faces (hT : m.tables.Oriented sidecar) (h : m.Pairs k p) : k.Faces sidecar p := by
  rcases h with ⟨hc, -⟩ | ⟨hc, -⟩
  · exact .inl ⟨hc.own_eq.symm, hc.outbound hT⟩
  · exact .inr ⟨hc.own_eq.symm, hc.outbound hT⟩

theorem oriented_after (hs : m.before.sidecar = sidecar) (hT : m.tables.Oriented sidecar) :
    m.after.Oriented sidecar := by
  constructor
  · intro l r h
    rcases after_pending.1 h with hr | ⟨-, h⟩
    · exact hs ▸ hr.outbound
    · exact hT.pending l r h
  · intro k entry h
    rcases proxy_of_some h with ⟨p, hp, rfl⟩ | ⟨-, old, hold, rfl⟩
    · exact hp.faces hT
    · rw [redirect_moves]
      exact hT.proxy k old hold

end Moment

theorem Bypass.oriented_run (sidecar : Ipv4) (capacity : Nat) (es : List (Event S)) :
    ((Bypass.empty sidecar capacity).run es).tables.Oriented sidecar := by
  induction es using List.reverseRecOn with
  | nil => exact Tables.oriented_empty sidecar capacity
  | append_singleton es e ih =>
    rw [after_run]
    exact Moment.oriented_after (sidecar_run _ es) ih

/-! ## What a sender and an accept find -/

namespace Tables

theorem reversed_of_redirect (hs : own.touches sidecar = true)
    (h : (T.onMessage sidecar own).reply = .redirect target socket) : target = own.reversed := by
  rw [reply_onMessage, if_pos hs, reply_forward] at h
  split at h
  · cases h
  · cases h
    rfl

/-- Only the sidecar talking to itself gets its own data back. -/
theorem Oriented.loops (hT : T.Oriented sidecar) (h : (T.onMessage sidecar own).reply = .redirect own socket) :
    own.own = own.peer ∧ own.own.addr = sidecar := by
  cases hs : own.touches sidecar with
  | false =>
    obtain ⟨entry, hrow, hentry⟩ := Option.map_eq_some_iff.1 (partner?_of_redirect hs h)
    exact absurd hentry (hT.proxy own entry hrow).ne
  | true =>
    have hends : own.own = own.peer := congrArg Tuple.own (reversed_of_redirect hs h)
    refine ⟨hends, ?_⟩
    simpa [Tuple.touches, ← hends] using hs

theorem Oriented.pending_sidecar (hT : T.Oriented sidecar) {l : Endpoint} (hl : l.addr = sidecar) :
    T.pending.get? l = none := by
  refine Option.eq_none_iff_forall_ne_some.2 fun r h => ?_
  exact (hT.pending l r h).1 hl

end Tables

/-- In every reachable state the rows face each other as their sockets do. So no
row names its own key, a data unit comes back to its sender only where the
sidecar talks to itself, and an accept from the sidecar, which registers its
socket first, then finds no origin and does nothing else. -/
theorem rows_face_and_never_loop (sidecar : Ipv4) (capacity : Nat) (es : List (Event S)) :
    let b := (Bypass.empty sidecar capacity).run es
    (∀ l r, b.tables.pending.get? l = some r → (⟨l, r⟩ : Tuple).Outbound sidecar) ∧
      (∀ k entry, b.tables.proxy.get? k = some entry → k.Faces sidecar entry.redirect ∧ entry.redirect ≠ k) ∧
      (∀ own target socket, (b.handle (.message own)).reply = .verdict (.redirect target socket) →
        target = own → own.own = own.peer ∧ own.own.addr = sidecar) ∧
      ∀ s : Socket S, s.isIpv4 = true → s.tuple.peer.addr = sidecar →
        ((b.tables.register s).tables.pending.remove s.tuple.peer).2 = none ∧
          b.tables.accepted sidecar s = b.tables.register s := by
  intro b
  have hT : b.tables.Oriented sidecar := Bypass.oriented_run sidecar capacity es
  refine ⟨hT.pending, ?_, ?_, ?_⟩
  · intro k entry h
    have hface := hT.proxy k entry h
    exact ⟨hface, hface.ne⟩
  · rintro own target socket h rfl
    have hs : b.sidecar = sidecar := Bypass.sidecar_run _ es
    have hverdict : (b.tables.onMessage sidecar target).reply = .redirect target socket := by
      rw [← hs]
      exact Reply.verdict.inj h
    exact hT.loops hverdict
  · intro s hi hs
    have hp : b.tables.pending.get? s.tuple.peer = none := hT.pending_sidecar hs
    refine ⟨?_, Tables.accepted_eq_register _ _ s hi hs hp⟩
    rw [Table.snd_remove, Tables.tables_register]
    exact hp

/-- The sidecar connected to its own endpoint. -/
example :
    let loop : Tuple := ⟨⟨defaultSidecar, 15001⟩, ⟨defaultSidecar, 15001⟩⟩
    let T := ((Bypass.empty defaultSidecar 4).run [.connected ⟨.inet, loop, 1⟩]).tables
    (T.onMessage defaultSidecar loop).reply = .redirect loop 1 := by
  decide +kernel

end Splice
