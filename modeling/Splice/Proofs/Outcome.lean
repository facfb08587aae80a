import Splice.Proofs.Steps
/-!
# What an answer tells

The handler of a connect, an accept or a state change answers in one word what
became of the tables, though it may have asked three of them for a place.
`Moment.Tells` is what each answer says of the tables before and after, row by row.
`Moment.RefusedBy` names the tables that refused an insert. What a call would have
left had none refused is what it leaves in the same tables with more room
(`Moment.widened`), where nothing is refused.
-/

namespace Splice

/-! ## Tables with more room -/

namespace Table

variable {κ α : Type} [Ord κ] [Std.TransOrd κ] {t u : Table κ α} {k : κ}

/-- No row of `t` but those of `ks` is another in `u`. -/
def KeepsBut (t u : Table κ α) (ks : List κ) : Prop := ∀ k, k ∉ ks → u.get? k = t.get? k

section Keeps
variable [Std.LawfulEqOrd κ] [DecidableEq κ]

theorem keepsBut_put (t : Table κ α) (k : κ) (v : α) : t.KeepsBut (t.put k v) [k] := by
  intro j hj
  rw [get?_put, if_neg (Ne.symm (by simpa using hj))]

theorem keepsBut_remove (t : Table κ α) (k : κ) : t.KeepsBut (t.remove k).1 [k] := by
  intro j hj
  rw [get?_remove, if_neg (Ne.symm (by simpa using hj))]

end Keeps

theorem rows_insertPair {t : ProxyTable} {a b : Tuple} (h : (t.insertPair a b).2 = .ok ()) :
    (t.insertPair a b).1.get? a = some ⟨b, .init⟩ ∧ (t.insertPair a b).1.get? b = some ⟨a, .init⟩ := by
  rw [get?_insertPair_of_ok h, get?_insertPair_of_ok h, if_pos rfl, if_pos rfl]
  refine ⟨?_, rfl⟩
  split
  · rename_i hab
    rw [hab]
    rfl
  · rfl

theorem keepsBut_insertPair {t : ProxyTable} {a b : Tuple} (h : (t.insertPair a b).2 = .ok ()) :
    t.KeepsBut (t.insertPair a b).1 [a, b] := by
  intro k hk
  simp only [List.mem_cons, List.not_mem_nil, or_false, not_or] at hk
  rw [get?_insertPair_of_ok h, if_neg (Ne.symm hk.2), if_neg (Ne.symm hk.1)]

/-- The same rows and as many places taken; the room may differ. -/
structure SameRows (t u : Table κ α) : Prop where
  rows : t.rows = u.rows
  size : t.size = u.size

/-- The same rows, with room for the two that a pair may add. -/
def widened (t : Table κ α) : Table κ α := { t with capacity := t.size + 2 }

theorem hasRoom_widened (t : Table κ α) (k : κ) : t.widened.HasRoom k := .inr (by simp [widened])

namespace SameRows

omit [Std.TransOrd κ] in
theorem of_widened (t : Table κ α) : t.SameRows t.widened := ⟨rfl, rfl⟩

theorem get? (h : t.SameRows u) (k : κ) : t.get? k = u.get? k := by rw [Table.get?, h.rows, Table.get?]

theorem put (h : t.SameRows u) (k : κ) (v : α) : (t.put k v).SameRows (u.put k v) where
  rows := by simp only [Table.put, h.rows]
  size := by simp only [Table.put, h.get?, h.size]

theorem remove (h : t.SameRows u) (k : κ) : (t.remove k).1.SameRows (u.remove k).1 := by
  unfold Table.remove
  rw [h.get?]
  cases u.get? k with
  | none => exact h
  | some v => exact ⟨by simp only [h.rows], by simp only [h.size]⟩

theorem update (h : t.SameRows u) (k : κ) (f : α → Option α) : (t.update k f).1.SameRows (u.update k f).1 := by
  rw [update_eq, update_eq, h.get?]
  cases (u.get? k).bind f with
  | none => exact h
  | some w => exact h.put k w

theorem tryPut (h : t.SameRows u) (ht : t.HasRoom k) (hu : u.HasRoom k) (v : α) :
    (t.tryPut k v).SameRows (u.tryPut k v) := by
  rw [tryPut_of_room ht, tryPut_of_room hu]
  exact h.put k v

theorem tryAdd (h : t.SameRows u) (ht : t.HasRoom k) (hu : u.HasRoom k) (v : α) :
    (t.tryAdd k v).SameRows (u.tryAdd k v) := by
  unfold Table.tryAdd
  rw [h.get?]
  split
  · exact h
  · exact h.tryPut ht hu v

end SameRows

end Table

namespace Tables

variable {S : Type}

/-- The same rows in every table, with room for any insert of one event. -/
def widened (T : Tables S) : Tables S :=
  { T with pending := T.pending.widened, proxy := T.proxy.widened, redirect := T.redirect.widened }

/-- The two hold the same rows in the table of that name. -/
def SameIn (T U : Tables S) : TableName → Prop
  | .pendingOrigin => T.pending.SameRows U.pending
  | .proxy => T.proxy.SameRows U.proxy
  | .redirect => T.redirect.SameRows U.redirect

end Tables

variable {S : Type}

/-- The event belongs to the life of the socket. -/
def Event.Concerns (s : Socket S) : Event S → Prop
  | .connected u | .accepted u | .stateChanged u _ => u = s
  | .message _ | .egress _ => False

namespace Moment

/-! ## Refused inserts -/

section Refused
variable (m : Moment S)

/-- The handler's answer. -/
def reply : Reply S := (m.before.handle m.event).reply

/-- The table refuses an insert that the handler asks of it. -/
def RefusedBy : TableName → Prop
  | .pendingOrigin => ∃ t e, m.Remembers t ∧ m.tables.recordOrigin t.own t.peer = .error e
  | .proxy => ∃ initiator acceptor e, m.Claims initiator acceptor ∧
      (m.tables.proxy.insertPair initiator acceptor).2 = .error e
  | .redirect => ∃ t socket e, m.Offers t socket ∧ m.tables.registerSocket t socket = .error e

/-- The same event in the same tables with more room. -/
def widened : Moment S := ⟨{ m.before with tables := m.tables.widened }, m.event⟩

@[simp] theorem sidecar_widened : m.widened.before.sidecar = m.before.sidecar := rfl

theorem refusedBy_pending_iff :
    m.RefusedBy .pendingOrigin ↔ ∃ t, m.Remembers t ∧ ¬m.tables.pending.HasRoom t.own := by
  refine exists_congr fun t => ?_
  rw [exists_and_left, Tables.recordOrigin_eq]
  refine and_congr_right' ?_
  by_cases ho : (m.tables.pending.get? t.own).isSome
  · have hr : m.tables.pending.HasRoom t.own := .inl ho
    simp [ho, hr]
  · by_cases hr : m.tables.pending.HasRoom t.own <;> simp [ho, hr]

theorem refusedBy_redirect_iff :
    m.RefusedBy .redirect ↔ ∃ t socket, m.Offers t socket ∧ ¬m.tables.redirect.HasRoom t := by
  refine exists_congr fun t => exists_congr fun socket => ?_
  rw [exists_and_left, Tables.registerSocket_eq]
  refine and_congr_right' ?_
  by_cases hr : m.tables.redirect.HasRoom t <;> simp [hr]

theorem not_refusedBy_widened (table : TableName) : ¬m.widened.RefusedBy table := by
  cases table with
  | pendingOrigin =>
    rw [refusedBy_pending_iff]
    rintro ⟨t, -, hn⟩
    exact hn (m.tables.pending.hasRoom_widened t.own)
  | proxy =>
    rintro ⟨i, a, e, -, he⟩
    obtain ⟨hi, ha⟩ := Table.hasRoom_of_two (t := m.tables.proxy.widened) (Nat.le_refl _) i a
    have hok := Table.insertPair_of_room hi ha
    rw [show m.widened.tables.proxy = m.tables.proxy.widened from rfl, hok] at he
    cases he
  | redirect =>
    rw [refusedBy_redirect_iff]
    rintro ⟨t, socket, -, hn⟩
    exact hn (m.tables.redirect.hasRoom_widened t)

end Refused

/-! ## Tables that refused nothing -/

section More
variable (m : Moment S)

theorem pending_widened (hn : ¬m.RefusedBy .pendingOrigin) : m.after.pending.SameRows m.widened.after.pending := by
  have hsame : m.tables.pending.SameRows m.widened.tables.pending := .of_widened _
  rcases m.pending_cases with ⟨t, hr, ha⟩ | ⟨i, a, hc, ha⟩ | ⟨t, hc, ha⟩ | ⟨hr, hc, he, ha⟩ <;> rw [ha]
  · have hroom : m.tables.pending.HasRoom t.own := by
      by_contra hfull
      exact hn (m.refusedBy_pending_iff.2 ⟨t, hr, hfull⟩)
    rw [pending_of_remembers (m := m.widened) hr]
    exact hsame.tryAdd hroom (m.tables.pending.hasRoom_widened _) _
  · obtain ⟨_, -, ha'⟩ := after_of_claims (m := m.widened) hc
    rw [ha']
    exact hsame.remove a.peer
  · rw [after_of_closes (m := m.widened) hc]
    exact hsame.remove t.own
  · rw [pending_of_none (m := m.widened) hr hc he]
    exact hsame

theorem proxy_widened (hn : ¬m.RefusedBy .proxy) : m.after.proxy.SameRows m.widened.after.proxy := by
  have hsame : m.tables.proxy.SameRows m.widened.tables.proxy := .of_widened _
  rcases m.proxy_cases with
    ⟨i, a, hc, ha⟩ | ⟨t, hc, ha⟩ | ⟨t, hs, ht, ha⟩ | ⟨t, hf, ha⟩ | ⟨hc, he, hs, hf, ha⟩ <;> rw [ha]
  · have hok : (m.tables.proxy.insertPair i a).2 = .ok () := by
      cases hr : (m.tables.proxy.insertPair i a).2 with
      | error e => exact absurd ⟨i, a, e, hc, hr⟩ hn
      | ok u => rfl
    obtain ⟨hi, ha⟩ := Table.hasRoom_of_two (t := m.tables.proxy.widened) (Nat.le_refl _) i a
    have hwide : m.widened.tables.proxy = m.tables.proxy.widened := rfl
    obtain ⟨_, -, ha'⟩ := after_of_claims (m := m.widened) hc
    rw [ha', hwide, Table.insertPair_of_ok hok, Table.insertPair_of_room hi ha]
    exact (hsame.put i _).put a _
  · rw [after_of_closes (m := m.widened) hc]
    exact hsame.remove t
  · rw [proxy_of_sends (m := m.widened) hs, sidecar_widened, if_neg (by simp [ht])]
    exact hsame.update t _
  · rw [proxy_of_frames (m := m.widened) hf]
    exact hsame.update t _
  · by_cases hsend : ∃ t, m.event.Sends t
    · obtain ⟨t, ht⟩ := hsend
      rw [proxy_of_sends (m := m.widened) ht, sidecar_widened, if_pos (hs t ht)]
      exact hsame
    · rw [proxy_of_none (m := m.widened) hc he (not_exists.1 hsend) hf]
      exact hsame

theorem redirect_widened (hn : ¬m.RefusedBy .redirect) : m.after.redirect.SameRows m.widened.after.redirect := by
  have hsame : m.tables.redirect.SameRows m.widened.tables.redirect := .of_widened _
  rcases m.redirect_cases with ⟨t, socket, ho, ha⟩ | ⟨t, hc, ha⟩ | ⟨ho, hc, ha⟩ <;> rw [ha]
  · have hroom : m.tables.redirect.HasRoom t := by
      by_contra hfull
      exact hn (m.refusedBy_redirect_iff.2 ⟨t, socket, ho, hfull⟩)
    rw [redirect_of_offers (m := m.widened) ho]
    exact hsame.tryPut hroom (m.tables.redirect.hasRoom_widened _) _
  · rw [after_of_closes (m := m.widened) hc]
    exact hsame.remove t
  · rw [redirect_of_none (m := m.widened) ho hc]
    exact hsame

/-- A table that refuses nothing is left as it would be with more room. -/
theorem sameIn_widened {table : TableName} (hn : ¬m.RefusedBy table) : m.after.SameIn m.widened.after table := by
  cases table with
  | pendingOrigin => exact m.pending_widened hn
  | proxy => exact m.proxy_widened hn
  | redirect => exact m.redirect_widened hn

end More

/-! ## What each answer says -/

/-- What an answer to an event of `s` says of the tables before and after it. -/
def Tells (m : Moment S) (s : Socket S) : Tracked → Prop
  | .ignored | .uncorrelated => m.after = m.tables
  | .registered =>
    m.after.redirect.get? s.tuple = some s.handle ∧ m.tables.redirect.KeepsBut m.after.redirect [s.tuple] ∧
      (m.after.pending = m.tables.pending ∨
        m.tables.pending.get? s.tuple.own = none ∧ m.after.pending.get? s.tuple.own = some s.tuple.peer ∧
          m.tables.pending.KeepsBut m.after.pending [s.tuple.own]) ∧
      m.after.proxy = m.tables.proxy ∧ m.after.debug = m.tables.debug
  | .correlated initiator acceptor =>
    acceptor = s.tuple ∧ initiator.own = s.tuple.peer ∧
      m.tables.pending.get? s.tuple.peer = some initiator.peer ∧ m.after.pending.get? s.tuple.peer = none ∧
      m.tables.pending.KeepsBut m.after.pending [s.tuple.peer] ∧
      m.after.proxy.get? initiator = some ⟨acceptor, .init⟩ ∧ m.after.proxy.get? acceptor = some ⟨initiator, .init⟩ ∧
      m.tables.proxy.KeepsBut m.after.proxy [initiator, acceptor] ∧
      m.after.redirect.get? s.tuple = some s.handle ∧ m.tables.redirect.KeepsBut m.after.redirect [s.tuple] ∧
      m.after.debug = m.tables.debug
  | .closed =>
    m.after.proxy.get? s.tuple = none ∧ m.tables.proxy.KeepsBut m.after.proxy [s.tuple] ∧
      m.after.pending.get? s.tuple.own = none ∧ m.tables.pending.KeepsBut m.after.pending [s.tuple.own] ∧
      m.after.redirect.get? s.tuple = none ∧ m.tables.redirect.KeepsBut m.after.redirect [s.tuple] ∧
      m.after.debug = m.tables.debug
  | .degraded e =>
    (m.RefusedBy .pendingOrigin → e = .full m.tables.pending.name m.tables.pending.capacity) ∧
      (m.RefusedBy .proxy → e = .full m.tables.proxy.name m.tables.proxy.capacity) ∧
      (¬m.RefusedBy .pendingOrigin → ¬m.RefusedBy .proxy →
        e = .full m.tables.redirect.name m.tables.redirect.capacity)

/-! ## The answers -/

section Answers
variable {m : Moment S} {s : Socket S}

theorem refusedBy_of_connected (he : m.event = .connected s) :
    (m.RefusedBy .pendingOrigin ↔
        s.isIpv4 = true ∧ s.tuple.own.addr ≠ m.before.sidecar ∧ s.tuple.own.addr ≠ s.tuple.peer.addr ∧
          ¬m.tables.pending.HasRoom s.tuple.own) ∧
      ¬m.RefusedBy .proxy ∧
      (m.RefusedBy .redirect ↔
        s.isIpv4 = true ∧ (s.tuple.own.addr = m.before.sidecar ∨ s.tuple.own.addr ≠ s.tuple.peer.addr) ∧
          ¬m.tables.redirect.HasRoom s.tuple) := by
  refine ⟨?_, ?_, ?_⟩
  · rw [refusedBy_pending_iff]
    simp [Remembers, he, and_assoc]
  · simp [RefusedBy, Claims, he]
  · rw [refusedBy_redirect_iff]
    simp [Offers, he, and_assoc]

theorem refusedBy_of_accepted (he : m.event = .accepted s) :
    ¬m.RefusedBy .pendingOrigin ∧
      (m.RefusedBy .proxy ↔ s.isIpv4 = true ∧ ∃ origin, m.tables.pending.get? s.tuple.peer = some origin ∧
        ∃ e, (m.tables.proxy.insertPair (Tables.initiatorOf s.tuple origin) s.tuple).2 = .error e) ∧
      (m.RefusedBy .redirect ↔ s.isIpv4 = true ∧
        (s.tuple.peer.addr = m.before.sidecar ∨ ∃ origin, m.tables.pending.get? s.tuple.peer = some origin) ∧
        ¬m.tables.redirect.HasRoom s.tuple) := by
  refine ⟨?_, ?_, ?_⟩
  · simp [RefusedBy, Remembers, he]
  · simp only [RefusedBy, Claims, he]
    constructor
    · rintro ⟨⟨io, origin⟩, a, e, ⟨hi, rfl, rfl, ho⟩, hr⟩
      exact ⟨hi, origin, ho, e, hr⟩
    · rintro ⟨hi, origin, ho, e, hr⟩
      exact ⟨_, _, e, ⟨hi, rfl, rfl, ho⟩, hr⟩
  · rw [refusedBy_redirect_iff]
    simp [Offers, he, and_assoc]

/-- The handler answers `r`, which is true of the tables, and is a refusal exactly if a table refused. -/
structure Gives (m : Moment S) (s : Socket S) (r : Tracked) : Prop where
  reply : m.reply = .tracked r
  tells : m.Tells s r
  refused : (∃ e, r = .degraded e) ↔ ∃ table, m.RefusedBy table

theorem not_refused (hp : ¬m.RefusedBy .pendingOrigin) (hx : ¬m.RefusedBy .proxy) (hr : ¬m.RefusedBy .redirect) :
    ¬∃ table, m.RefusedBy table := by
  rintro ⟨_ | _ | _, h⟩
  · exact hp h
  · exact hx h
  · exact hr h

/-- A socket that is registered and not paired, where its origin is new or `pending` is as it was. -/
theorem gives_of_register {pending : Table Endpoint Endpoint}
    (hreply : m.reply = .tracked (m.tables.register s).reply)
    (hafter : m.after = { m.tables with pending, redirect := m.tables.redirect.tryPut s.tuple s.handle })
    (hpending : pending = m.tables.pending ∨ m.tables.pending.get? s.tuple.own = none ∧
      pending.get? s.tuple.own = some s.tuple.peer ∧ m.tables.pending.KeepsBut pending [s.tuple.own])
    (hp : ¬m.RefusedBy .pendingOrigin) (hx : ¬m.RefusedBy .proxy)
    (hr : m.RefusedBy .redirect ↔ ¬m.tables.redirect.HasRoom s.tuple) : ∃ r, m.Gives s r := by
  rw [Tables.reply_register] at hreply
  by_cases hroom : m.tables.redirect.HasRoom s.tuple
  · rw [if_pos hroom] at hreply
    rw [Table.tryPut_of_room hroom] at hafter
    refine ⟨_, hreply, ?_, iff_of_false (by simp) (not_refused hp hx (by simp [hr, hroom]))⟩
    rw [Tells, hafter]
    exact ⟨Table.get?_put_self _ _ _, Table.keepsBut_put _ _ _, hpending, rfl, rfl⟩
  · rw [if_neg hroom] at hreply
    exact ⟨_, hreply, ⟨fun h => absurd h hp, fun h => absurd h hx, fun _ _ => rfl⟩,
      iff_of_true ⟨_, rfl⟩ ⟨.redirect, hr.2 hroom⟩⟩

theorem gives_of_connected (he : m.event = .connected s) : ∃ r, m.Gives s r := by
  obtain ⟨hp, hx, hr⟩ := refusedBy_of_connected he
  have hafter := after_connected he
  have hreply : m.reply = .tracked (m.tables.connected m.before.sidecar s).reply := by
    rw [reply, he]
    rfl
  rw [Tables.tables_connected] at hafter
  rw [Tables.reply_connected] at hreply
  cases hi : s.isIpv4 with
  | false =>
    rw [if_pos hi] at hafter hreply
    exact ⟨_, hreply, hafter, iff_of_false (by simp) (not_refused (by simp [hp, hi]) hx (by simp [hr, hi]))⟩
  | true =>
    rw [if_neg (by simp [hi])] at hafter hreply
    by_cases hs : s.tuple.own.addr = m.before.sidecar
    · rw [if_pos hs] at hafter hreply
      exact gives_of_register hreply hafter (.inl rfl) (by simp [hp, hs]) hx (by simp [hr, hi, hs])
    rw [if_neg hs] at hafter hreply
    by_cases hself : s.tuple.own.addr = s.tuple.peer.addr
    · rw [if_pos hself] at hafter hreply
      exact ⟨_, hreply, hafter, iff_of_false (by simp)
        (not_refused (by simp [hp, hself]) hx fun h => (hr.1 h).2.1.elim hs fun hn => hn hself)⟩
    rw [if_neg hself] at hafter hreply
    by_cases hroom : m.tables.pending.HasRoom s.tuple.own
    · rw [if_pos hroom] at hreply
      refine gives_of_register hreply hafter ?_ (by simp [hp, hroom]) hx (by simp [hr, hi, hself])
      unfold Table.tryAdd
      cases ho : m.tables.pending.get? s.tuple.own with
      | some o => exact .inl rfl
      | none =>
        rw [if_neg (by simp), Table.tryPut_of_room hroom]
        exact .inr ⟨rfl, Table.get?_put_self _ _ _, Table.keepsBut_put _ _ _⟩
    · rw [if_neg hroom] at hreply
      have hrefused : m.RefusedBy .pendingOrigin := hp.2 ⟨hi, hs, hself, hroom⟩
      exact ⟨_, hreply, ⟨fun _ => rfl, fun h => absurd h hx, fun h => absurd hrefused h⟩,
        iff_of_true ⟨_, rfl⟩ ⟨.pendingOrigin, hrefused⟩⟩

/-- An accepted socket that finds an origin. -/
theorem gives_of_origin {origin : Endpoint} (he : m.event = .accepted s) (hi : s.isIpv4 = true)
    (ho : m.tables.pending.get? s.tuple.peer = some origin) : ∃ r, m.Gives s r := by
  obtain ⟨hp, hx, hr⟩ := refusedBy_of_accepted he
  have hafter := after_accepted he
  have hreply : m.reply = .tracked (m.tables.accepted m.before.sidecar s).reply := by
    rw [reply, he]
    rfl
  rw [Tables.tables_accepted, if_neg (by simp [hi]), ho] at hafter
  rw [Tables.reply_accepted, if_neg (by simp [hi]), ho] at hreply
  dsimp only at hafter hreply
  rw [Tables.reply_correlate] at hreply
  cases hpair : (m.tables.proxy.insertPair (Tables.initiatorOf s.tuple origin) s.tuple).2 with
  | error e =>
    rw [hpair] at hreply
    have hrefused : m.RefusedBy .proxy := hx.2 ⟨hi, origin, ho, e, hpair⟩
    exact ⟨_, hreply, ⟨fun h => absurd h hp, fun _ => Table.eq_full_of_error hpair, fun _ h => absurd hrefused h⟩,
      iff_of_true ⟨_, rfl⟩ ⟨.proxy, hrefused⟩⟩
  | ok u =>
    rw [hpair] at hreply
    dsimp only at hreply
    have hnot : ¬m.RefusedBy .proxy := by
      rw [hx]
      rintro ⟨-, o, ho', e, he⟩
      rw [ho] at ho'
      cases ho'
      rw [hpair] at he
      cases he
    by_cases hroom : m.tables.redirect.HasRoom s.tuple
    · rw [if_pos hroom] at hreply
      rw [Table.tryPut_of_room hroom] at hafter
      refine ⟨_, hreply, ?_, iff_of_false (by simp) (not_refused hp hnot (by simp [hr, hroom]))⟩
      rw [Tells, hafter]
      obtain ⟨hinitiator, hacceptor⟩ := Table.rows_insertPair hpair
      exact ⟨rfl, rfl, ho, by rw [Table.get?_remove, if_pos rfl], Table.keepsBut_remove _ _, hinitiator, hacceptor,
        Table.keepsBut_insertPair hpair, Table.get?_put_self _ _ _, Table.keepsBut_put _ _ _, rfl⟩
    · rw [if_neg hroom] at hreply
      exact ⟨_, hreply, ⟨fun h => absurd h hp, fun h => absurd h hnot, fun _ _ => rfl⟩,
        iff_of_true ⟨_, rfl⟩ ⟨.redirect, hr.2 ⟨hi, .inr ⟨origin, ho⟩, hroom⟩⟩⟩

theorem gives_of_accepted (he : m.event = .accepted s) : ∃ r, m.Gives s r := by
  obtain ⟨hp, hx, hr⟩ := refusedBy_of_accepted he
  have hafter := after_accepted he
  have hreply : m.reply = .tracked (m.tables.accepted m.before.sidecar s).reply := by
    rw [reply, he]
    rfl
  rw [Tables.tables_accepted] at hafter
  rw [Tables.reply_accepted] at hreply
  cases hi : s.isIpv4 with
  | false =>
    rw [if_pos hi] at hafter hreply
    exact ⟨_, hreply, hafter, iff_of_false (by simp) (not_refused hp (by simp [hx, hi]) (by simp [hr, hi]))⟩
  | true =>
    cases ho : m.tables.pending.get? s.tuple.peer with
    | some origin => exact gives_of_origin he hi ho
    | none =>
      rw [if_neg (by simp [hi]), ho] at hafter hreply
      dsimp only at hafter hreply
      by_cases hs : s.tuple.peer.addr = m.before.sidecar
      · rw [if_pos hs] at hafter hreply
        exact gives_of_register hreply hafter (.inl rfl) hp (by simp [hx, ho]) (by simp [hr, hi, hs])
      · rw [if_neg hs] at hafter hreply
        exact ⟨_, hreply, hafter, iff_of_false (by simp)
          (not_refused hp (by simp [hx, ho]) (by simp [hr, hs, ho]))⟩

theorem gives_of_stateChanged {state : TcpState} (he : m.event = .stateChanged s state) : ∃ r, m.Gives s r := by
  have hp : ¬m.RefusedBy .pendingOrigin := by simp [RefusedBy, Remembers, he]
  have hx : ¬m.RefusedBy .proxy := by simp [RefusedBy, Claims, he]
  have hr : ¬m.RefusedBy .redirect := by simp [RefusedBy, Offers, he]
  have hafter := after_stateChanged he
  have hreply : m.reply = .tracked (m.tables.stateChanged s state).reply := by
    rw [reply, he]
    rfl
  rw [Tables.tables_stateChanged] at hafter
  rw [Tables.reply_stateChanged] at hreply
  split at hreply
  · rename_i hc
    rw [if_pos hc] at hafter
    refine ⟨_, hreply, ?_, iff_of_false (by simp) (not_refused hp hx hr)⟩
    rw [Tells, hafter]
    refine ⟨?_, Table.keepsBut_remove _ _, ?_, Table.keepsBut_remove _ _, ?_, Table.keepsBut_remove _ _, rfl⟩ <;>
      rw [Table.get?_remove, if_pos rfl]
  · rename_i hc
    rw [if_neg hc] at hafter
    exact ⟨_, hreply, hafter, iff_of_false (by simp) (not_refused hp hx hr)⟩

end Answers

end Moment

/-- Every event of a socket's life gets an answer that is true of the rows before
and after it, and it is a refusal exactly if some table refused an insert. A refusal
by the redirect table is named only where no other table refused. Every table that
did not refuse holds what it holds after the same event where there is more room and
nothing is refused. -/
theorem answer_tells_outcome (m : Moment S) (s : Socket S) (h : m.event.Concerns s) :
    (∃ r, m.reply = .tracked r ∧ m.Tells s r ∧ ((∃ e, r = .degraded e) ↔ ∃ table, m.RefusedBy table)) ∧
      (∀ table, ¬m.widened.RefusedBy table) ∧
      ∀ table, ¬m.RefusedBy table → m.after.SameIn m.widened.after table := by
  have hgives : ∃ r, m.Gives s r := by
    cases he : m.event with
    | connected u =>
      rw [he] at h
      exact Moment.gives_of_connected (he.trans (congrArg Event.connected h))
    | accepted u =>
      rw [he] at h
      exact Moment.gives_of_accepted (he.trans (congrArg Event.accepted h))
    | stateChanged u state =>
      rw [he] at h
      exact Moment.gives_of_stateChanged (he.trans (congrArg (Event.stateChanged · state) h))
    | message own =>
      rw [he] at h
      exact h.elim
    | egress frame =>
      rw [he] at h
      exact h.elim
  obtain ⟨r, hr⟩ := hgives
  exact ⟨⟨r, hr.reply, hr.tells, hr.refused⟩, m.not_refusedBy_widened, fun _ hn => m.sameIn_widened hn⟩

/-- With one place in each table an accept finds the origin of its peer, and room
neither for the pair nor for its own socket. The answer names the proxy table. -/
theorem answer_names_proxy_table_first :
    let dialer : Tuple := ⟨⟨⟨10, 0, 0, 5⟩, 40000⟩, ⟨⟨10, 0, 0, 9⟩, 8080⟩⟩
    let s : Socket Nat := ⟨.inet, ⟨⟨⟨10, 0, 0, 5⟩, 15001⟩, dialer.own⟩, 2⟩
    let m : Moment Nat := ⟨(Bypass.empty defaultSidecar 1).run [.connected ⟨.inet, dialer, 1⟩], .accepted s⟩
    m.event.Concerns s ∧ m.RefusedBy .proxy ∧ m.RefusedBy .redirect ∧
      m.reply = .tracked (.degraded (.full .proxy 1)) ∧ m.after.SameIn m.widened.after .pendingOrigin := by
  intro dialer s m
  have hconcerns : m.event.Concerns s := rfl
  have hpending : m.tables.pending.get? s.tuple.peer = some dialer.peer := by decide +kernel
  have hproxy : m.RefusedBy .proxy :=
    ⟨dialer, s.tuple, .full .proxy 1, ⟨rfl, rfl, rfl, hpending⟩, by decide +kernel⟩
  have hredirect : m.RefusedBy .redirect :=
    m.refusedBy_redirect_iff.2 ⟨s.tuple, 2, ⟨rfl, rfl, rfl, .inr ⟨_, hpending⟩⟩, by decide +kernel⟩
  obtain ⟨⟨r, hreply, htells, hrefused⟩, -, hsame⟩ := answer_tells_outcome m s hconcerns
  obtain ⟨e, rfl⟩ := hrefused.2 ⟨.proxy, hproxy⟩
  refine ⟨hconcerns, hproxy, hredirect, hreply.trans ?_, hsame _ (Moment.refusedBy_of_accepted rfl).1⟩
  rw [htells.2.1 hproxy]
  have hkept : m.tables.proxy.name = .proxy ∧ m.tables.proxy.capacity = 1 := by decide +kernel
  rw [hkept.1, hkept.2]

end Splice
