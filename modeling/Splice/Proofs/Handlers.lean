import Splice.Proofs.Proxy
import Splice.Bypass
/-!
# What each handler leaves in the tables

One lemma for each handler and table, in terms of `tryPut`, `tryAdd`,
`insertPair`, `enable` and `disable`. Everything about runs of the bypass is
proved from these; no other module looks into the handlers.
-/

namespace Splice.Tables

variable {S : Type} (T : Tables S) (sidecar : Ipv4) (s : Socket S)

/-! ## Registration -/

theorem registerSocket_eq (t : Tuple) (socket : S) :
    T.registerSocket t socket =
      if T.redirect.HasRoom t then .ok { T with redirect := T.redirect.put t socket }
      else .error (.full T.redirect.name T.redirect.capacity) := by
  unfold registerSocket
  rw [Table.upsert_eq]
  split <;> rfl

theorem register_eq :
    T.register s =
      if T.redirect.HasRoom s.tuple then
        ⟨{ T with redirect := T.redirect.tryPut s.tuple s.handle }, .registered, []⟩
      else ⟨T, .degraded (.full T.redirect.name T.redirect.capacity),
        [.notRegistered s.tuple (.full T.redirect.name T.redirect.capacity)]⟩ := by
  unfold register
  rw [registerSocket_eq]
  by_cases h : T.redirect.HasRoom s.tuple <;> simp [h, Table.tryPut]

theorem tables_register : (T.register s).tables = { T with redirect := T.redirect.tryPut s.tuple s.handle } := by
  rw [register_eq]
  by_cases h : T.redirect.HasRoom s.tuple <;> simp [h, Table.tryPut]

theorem reply_register :
    (T.register s).reply =
      if T.redirect.HasRoom s.tuple then .registered
      else .degraded (.full T.redirect.name T.redirect.capacity) := by
  rw [register_eq]
  split <;> rfl

theorem reply_register_of_room (h : T.redirect.HasRoom s.tuple) : (T.register s).reply = .registered := by
  rw [reply_register, if_pos h]

/-! ## A socket has connected -/

theorem recordOrigin_eq (initiator origin : Endpoint) :
    T.recordOrigin initiator origin =
      if (T.pending.get? initiator).isSome then .ok (T, false)
      else if T.pending.HasRoom initiator then
        .ok ({ T with pending := T.pending.put initiator origin }, true)
      else .error (.full T.pending.name T.pending.capacity) := by
  unfold recordOrigin
  rw [Table.insertIfAbsent_eq]
  split
  · rfl
  · split <;> rfl

theorem tables_connected :
    (T.connected sidecar s).tables =
      if s.isIpv4 = false then T
      else if s.tuple.own.addr = sidecar then { T with redirect := T.redirect.tryPut s.tuple s.handle }
      else if s.tuple.own.addr = s.tuple.peer.addr then T
      else { T with
        pending := T.pending.tryAdd s.tuple.own s.tuple.peer
        redirect := T.redirect.tryPut s.tuple s.handle } := by
  unfold connected
  rw [recordOrigin_eq]
  cases hi : s.isIpv4
  · simp
  simp only [Bool.not_true, Bool.false_eq_true, if_false, Bool.true_eq_false]
  by_cases hs : s.tuple.own.addr = sidecar
  · simp only [hs, if_true, tables_register]
  by_cases hp : s.tuple.own.addr = s.tuple.peer.addr
  · simp only [if_neg hs, if_pos hp]
  simp only [if_neg hs, if_neg hp]
  by_cases ho : (T.pending.get? s.tuple.own).isSome
  · simp [ho, tables_register, Table.tryAdd]
  · by_cases hr : T.pending.HasRoom s.tuple.own <;> simp [ho, hr, tables_register, Table.tryAdd, Table.tryPut]

/-- A refused origin is reported before a refused registration. -/
theorem reply_connected :
    (T.connected sidecar s).reply =
      if s.isIpv4 = false then .ignored
      else if s.tuple.own.addr = sidecar then (T.register s).reply
      else if s.tuple.own.addr = s.tuple.peer.addr then .ignored
      else if T.pending.HasRoom s.tuple.own then (T.register s).reply
      else .degraded (.full T.pending.name T.pending.capacity) := by
  unfold connected
  rw [recordOrigin_eq]
  cases hi : s.isIpv4
  · simp
  simp only [Bool.not_true, Bool.false_eq_true, if_false, Bool.true_eq_false]
  by_cases hs : s.tuple.own.addr = sidecar
  · simp only [hs, if_true]
  by_cases hp : s.tuple.own.addr = s.tuple.peer.addr
  · simp only [if_neg hs, if_pos hp]
  simp only [if_neg hs, if_neg hp]
  by_cases ho : (T.pending.get? s.tuple.own).isSome
  · have hr : T.pending.HasRoom s.tuple.own := .inl ho
    simp only [if_pos ho, if_pos hr]
  · by_cases hr : T.pending.HasRoom s.tuple.own
    · simp only [if_neg ho, if_pos hr, reply_register]
    · simp only [if_neg ho, if_neg hr]

theorem reply_connected_of_room (hp : T.pending.HasRoom s.tuple.own) (hr : T.redirect.HasRoom s.tuple) :
    (T.connected sidecar s).reply =
      if s.isIpv4 = true ∧ (s.tuple.own.addr = sidecar ∨ s.tuple.own.addr ≠ s.tuple.peer.addr) then .registered
      else .ignored := by
  rw [reply_connected, reply_register_of_room T s hr, if_pos hp]
  cases hi : s.isIpv4
  · simp
  by_cases hs : s.tuple.own.addr = sidecar
  · simp [hs]
  by_cases hpeer : s.tuple.own.addr = s.tuple.peer.addr
  · rw [if_neg (by simp), if_neg hs, if_pos hpeer, if_neg fun h => h.2.elim hs fun hn => hn hpeer]
  · rw [if_neg (by simp), if_neg hs, if_neg hpeer, if_pos ⟨rfl, .inr hpeer⟩]

/-! ## A socket has been accepted -/

/-- The socket that connected from the peer's endpoint to `origin`. -/
def initiatorOf (t : Tuple) (origin : Endpoint) : Tuple := ⟨t.peer, origin⟩

theorem tables_correlate (origin : Endpoint) :
    (T.correlate s origin).tables =
      { T with
        proxy := (T.proxy.insertPair (initiatorOf s.tuple origin) s.tuple).1
        redirect := T.redirect.tryPut s.tuple s.handle } := by
  unfold correlate
  dsimp only
  split <;> simp [tables_register, initiatorOf]

theorem tables_accepted :
    (T.accepted sidecar s).tables =
      if s.isIpv4 = false then T
      else match T.pending.get? s.tuple.peer with
        | none =>
          if s.tuple.peer.addr = sidecar then { T with redirect := T.redirect.tryPut s.tuple s.handle } else T
        | some origin =>
          { T with
            pending := (T.pending.remove s.tuple.peer).1
            proxy := (T.proxy.insertPair (initiatorOf s.tuple origin) s.tuple).1
            redirect := T.redirect.tryPut s.tuple s.handle } := by
  unfold accepted
  cases hi : s.isIpv4
  · simp
  simp only [Bool.not_true, Bool.false_eq_true, if_false, Bool.true_eq_false]
  by_cases hs : s.tuple.peer.addr = sidecar
  · simp only [hs, if_true]
    have hp : (T.register s).tables.pending = T.pending := by rw [tables_register]
    rw [hp, ← Prod.eta (T.pending.remove s.tuple.peer), Table.snd_remove]
    cases ho : T.pending.get? s.tuple.peer with
    | none => simp only [tables_register]
    | some origin => simp only [tables_correlate, tables_register, Table.tryPut_tryPut]
  · simp only [hs, if_false]
    rw [← Prod.eta (T.pending.remove s.tuple.peer), Table.snd_remove]
    cases ho : T.pending.get? s.tuple.peer with
    | none => rfl
    | some origin => simp only [tables_correlate]

/-- A refused pair is reported before a refused registration. -/
theorem reply_correlate (origin : Endpoint) :
    (T.correlate s origin).reply =
      match (T.proxy.insertPair (initiatorOf s.tuple origin) s.tuple).2 with
      | .error e => .degraded e
      | .ok () =>
        if T.redirect.HasRoom s.tuple then .correlated (initiatorOf s.tuple origin) s.tuple
        else .degraded (.full T.redirect.name T.redirect.capacity) := by
  unfold correlate initiatorOf
  dsimp only
  rw [reply_register]
  cases (T.proxy.insertPair ⟨s.tuple.peer, origin⟩ s.tuple).2 with
  | error e => rfl
  | ok u => by_cases hr : T.redirect.HasRoom s.tuple <;> simp [hr]

theorem reply_accepted :
    (T.accepted sidecar s).reply =
      if s.isIpv4 = false then .ignored
      else match T.pending.get? s.tuple.peer with
        | none => if s.tuple.peer.addr = sidecar then (T.register s).reply else .uncorrelated
        | some origin => (T.correlate s origin).reply := by
  unfold accepted
  cases hi : s.isIpv4
  · simp
  simp only [Bool.not_true, Bool.false_eq_true, if_false, Bool.true_eq_false]
  by_cases hs : s.tuple.peer.addr = sidecar
  · simp only [hs, if_true]
    have hp : (T.register s).tables.pending = T.pending := by rw [tables_register]
    rw [hp, ← Prod.eta (T.pending.remove s.tuple.peer), Table.snd_remove]
    cases T.pending.get? s.tuple.peer with
    | none => rfl
    | some origin =>
      simp only [reply_correlate, tables_register, Table.hasRoom_tryPut, Table.name_tryPut, Table.capacity_tryPut]
  · simp only [hs, if_false]
    rw [← Prod.eta (T.pending.remove s.tuple.peer), Table.snd_remove]
    cases T.pending.get? s.tuple.peer with
    | none => rfl
    | some origin => simp only [reply_correlate]

theorem reply_accepted_of_room (hr : T.redirect.HasRoom s.tuple)
    (hx : ∀ origin, T.pending.get? s.tuple.peer = some origin →
      (T.proxy.insertPair (initiatorOf s.tuple origin) s.tuple).2 = .ok ()) :
    (T.accepted sidecar s).reply =
      if s.isIpv4 = false then .ignored
      else match T.pending.get? s.tuple.peer with
        | none => if s.tuple.peer.addr = sidecar then .registered else .uncorrelated
        | some origin => .correlated (initiatorOf s.tuple origin) s.tuple := by
  rw [reply_accepted, reply_register_of_room T s hr]
  cases ho : T.pending.get? s.tuple.peer with
  | none => rfl
  | some origin => simp only [reply_correlate, hx origin ho, if_pos hr]

/-- An answer that reports a refused insert, but not one of the redirect table,
reports a refused pair. -/
theorem refused_of_reply_accepted {e : TableError} (h : (T.accepted sidecar s).reply = .degraded e)
    (hn : e ≠ .full T.redirect.name T.redirect.capacity) :
    s.isIpv4 = true ∧ ∃ origin, T.pending.get? s.tuple.peer = some origin ∧
      (T.proxy.insertPair (initiatorOf s.tuple origin) s.tuple).2 = .error e := by
  rw [reply_accepted] at h
  split at h
  · cases h
  rename_i hi
  refine ⟨by simpa using hi, ?_⟩
  split at h
  · split at h
    · rw [reply_register] at h
      split at h
      · cases h
      · cases h
        exact absurd rfl hn
    · cases h
  · rename_i origin ho
    refine ⟨origin, ho, ?_⟩
    rw [reply_correlate] at h
    split at h
    · rename_i e' he
      cases h
      exact he
    · split at h
      · cases h
      · cases h
        exact absurd rfl hn

/-- An accept from the sidecar that finds no origin only registers its socket. -/
theorem accepted_eq_register (hi : s.isIpv4 = true) (hs : s.tuple.peer.addr = sidecar)
    (hp : T.pending.get? s.tuple.peer = none) : T.accepted sidecar s = T.register s := by
  unfold accepted
  simp only [hi, hs, Bool.not_true, Bool.false_eq_true, if_false, if_true]
  have hpr : (T.register s).tables.pending = T.pending := by rw [tables_register]
  rw [hpr, ← Prod.eta (T.pending.remove s.tuple.peer), Table.snd_remove, hp]

/-! ## A socket's state has changed -/

theorem tables_stateChanged (state : TcpState) :
    (T.stateChanged s state).tables =
      if s.isIpv4 = true ∧ state = .close then
        { T with
          proxy := (T.proxy.remove s.tuple).1
          pending := (T.pending.remove s.tuple.own).1
          redirect := (T.redirect.remove s.tuple).1 }
      else T := by
  unfold stateChanged
  cases hi : s.isIpv4 <;> by_cases hc : state = .close <;> simp [hc]

theorem reply_stateChanged (state : TcpState) :
    (T.stateChanged s state).reply = if s.isIpv4 = true ∧ state = .close then .closed else .ignored := by
  unfold stateChanged
  cases hi : s.isIpv4 <;> by_cases hc : state = .close <;> simp [hc]

/-! ## Data units and frames -/

theorem proxy_forward (own target : Tuple) : (T.forward own target).tables.proxy = T.proxy := by
  unfold forward
  split
  · rfl
  · split <;> rfl

theorem pending_forward (own target : Tuple) : (T.forward own target).tables.pending = T.pending := by
  unfold forward
  split
  · rfl
  · split <;> rfl

theorem redirect_forward (own target : Tuple) : (T.forward own target).tables.redirect = T.redirect := by
  unfold forward
  split
  · rfl
  · split <;> rfl

theorem reply_forward (own target : Tuple) :
    (T.forward own target).reply = match T.redirect.get? target with
      | none => .pass
      | some socket => .redirect target socket := by
  unfold forward
  cases T.redirect.get? target with
  | none => rfl
  | some socket => dsimp only; split <;> rfl

theorem pending_onMessage (own : Tuple) : (T.onMessage sidecar own).tables.pending = T.pending := by
  unfold onMessage
  split
  · exact pending_forward T own _
  · split <;> first | rfl | exact pending_forward T own _

theorem redirect_onMessage (own : Tuple) : (T.onMessage sidecar own).tables.redirect = T.redirect := by
  unfold onMessage
  split
  · exact redirect_forward T own _
  · split <;> first | rfl | exact redirect_forward T own _

/-- Off the sidecar a data unit enables its socket's row; in any state but
`init` that changes nothing. -/
theorem proxy_onMessage (own : Tuple) :
    (T.onMessage sidecar own).tables.proxy = if own.touches sidecar then T.proxy else (T.proxy.enable own).1 := by
  unfold onMessage
  split
  · exact proxy_forward T own _
  · split <;> simp_all [Table.enable, Table.move, Table.update, proxy_forward]

theorem reply_onMessage (own : Tuple) :
    (T.onMessage sidecar own).reply =
      if own.touches sidecar then (T.forward own own.reversed).reply
      else match T.proxy.get? own with
        | some ⟨partner, .enabled⟩ => (T.forward own partner).reply
        | _ => .pass := by
  unfold onMessage
  split
  · rfl
  · split <;> simp_all

theorem debug_forward (own target : Tuple) :
    (T.forward own target).tables.debug =
      if (T.forward own target).reply.isRedirect = true ∧ T.debug.isEnabled = true then T.debug.count else T.debug := by
  unfold forward
  cases T.redirect.get? target with
  | none => rfl
  | some socket => dsimp only; split <;> simp_all [Verdict.isRedirect]

/-- The units counted are those redirected while tracing is on. -/
theorem debug_onMessage (own : Tuple) :
    (T.onMessage sidecar own).tables.debug =
      if (T.onMessage sidecar own).reply.isRedirect = true ∧ T.debug.isEnabled = true then T.debug.count
      else T.debug := by
  unfold onMessage
  split
  · exact debug_forward T own _
  · split <;> first | rfl | exact debug_forward T own _

theorem tables_onEgress (frame : Octets) :
    (T.onEgress frame).tables = match Frame.tuple? frame with
      | .error _ => T
      | .ok t => { T with proxy := (T.proxy.disable t).1 } := by
  unfold onEgress
  cases Frame.tuple? frame with
  | error e => rfl
  | ok t => dsimp only; split <;> rfl

theorem reply_onEgress (frame : Octets) :
    (T.onEgress frame).reply = match Frame.tuple? frame with
      | .error e => .skipped e
      | .ok t => match T.proxy.get? t with
        | none => .untracked
        | some ⟨_, .disabled⟩ => .alreadyDisabled
        | some ⟨_, before⟩ => .disabled t before := by
  unfold onEgress
  cases Frame.tuple? frame with
  | error e => rfl
  | ok t =>
    dsimp only
    rw [← Prod.eta (T.proxy.disable t), Table.disable, Table.snd_move]
    cases T.proxy.get? t with
    | none => rfl
    | some entry =>
      obtain ⟨p, state⟩ := entry
      cases state <;> rfl

/-- A frame disables a row when it is one of the row's socket and the row was
not disabled yet. -/
theorem reply_onEgress_eq_disabled {frame : Octets} {t : Tuple} {before : ProxyState} :
    (T.onEgress frame).reply = .disabled t before ↔
      Frame.tuple? frame = .ok t ∧ ∃ p, T.proxy.get? t = some ⟨p, before⟩ ∧ before ≠ .disabled := by
  rw [reply_onEgress]
  cases Frame.tuple? frame with
  | error e => simp
  | ok u =>
    simp only [Except.ok.injEq]
    constructor
    · intro h
      split at h
      · cases h
      · cases h
      · rename_i p state hstate he
        cases h
        exact ⟨rfl, p, he, hstate⟩
    · rintro ⟨rfl, p, he, hb⟩
      rw [he]
      cases before with
      | disabled => exact absurd rfl hb
      | init => rfl
      | enabled => rfl

/-- A frame that cannot be decoded changes nothing. -/
theorem tables_onEgress_of_not_ok {frame : Octets} (h : ∀ t, Frame.tuple? frame ≠ .ok t) :
    (T.onEgress frame).tables = T := by
  rw [tables_onEgress]
  split
  · rfl
  · rename_i t ht
    exact absurd ht (h t)

end Splice.Tables
