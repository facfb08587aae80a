import Splice.Proofs.Steps
/-!
# Every row after a moment

The row of one key in each table after a moment, from the moment and the row
before. `Table.Counted` and the bounds of the tables hold throughout a run.
-/

namespace Splice

variable {S : Type}

namespace Moment

variable {m : Moment S} {t k p : Tuple} {l r : Endpoint} {socket : S}

/-! ## Registered sockets -/

theorem registers_iff : m.Registers t socket ↔ m.Offers t socket ∧ m.tables.redirect.HasRoom t := by
  unfold Registers
  rw [Tables.registerSocket_eq]
  by_cases h : m.tables.redirect.HasRoom t <;> simp [h]

/-- A socket is registered after a moment that registers it, or if it was and
the moment neither closes it nor registers another. -/
theorem after_redirect :
    m.after.redirect.get? t = some socket ↔
      m.Registers t socket ∨
        (¬m.event.Closes t ∧ (∀ other, ¬m.Registers t other) ∧ m.tables.redirect.get? t = some socket) := by
  simp only [registers_iff]
  rcases m.redirect_cases with ⟨u, other, ho, ha⟩ | ⟨u, hc, ha⟩ | ⟨ho, hc, ha⟩ <;> rw [ha]
  · have hc := ho.not_closes t
    rw [Table.get?_tryPut]
    by_cases hu : u = t
    · subst hu
      have hs : ∀ x, m.Offers u x ↔ other = x := fun x => ⟨fun h => (ho.unique h).2, fun h => h ▸ ho⟩
      by_cases hr : m.tables.redirect.HasRoom u <;> simp [hs, hc, hr]
    · have hs : ∀ x, ¬m.Offers t x := fun x h => hu (ho.unique h).1
      simp [hs, hc, hu]
  · have hs : ∀ x, ¬m.Offers t x := fun x h => h.not_closes u hc
    rw [Table.get?_remove]
    by_cases hu : u = t
    · subst hu; simp [hs, hc]
    · have hn : ¬m.event.Closes t := fun h => hu (hc.unique h)
      simp [hs, hn, hu]
  · simp [ho, hc]

/-! ## Pending origins -/

/-- The pending origin of `l` is claimed by an accept, or dropped as a socket at
`l` closes. -/
def Releases (m : Moment S) (l : Endpoint) : Prop :=
  (∃ initiator acceptor, m.Claims initiator acceptor ∧ acceptor.peer = l) ∨ ∃ t, m.event.Closes t ∧ t.own = l

theorem records_iff :
    m.Records t ↔ m.Remembers t ∧ m.tables.pending.get? t.own = none ∧ m.tables.pending.HasRoom t.own := by
  unfold Records
  rw [Tables.recordOrigin_eq]
  cases ho : m.tables.pending.get? t.own with
  | some o => simp
  | none => by_cases h : m.tables.pending.HasRoom t.own <;> simp [h]

theorem Remembers.unique {u : Tuple} (h : m.Remembers t) (h' : m.Remembers u) : t = u := by
  unfold Remembers at h h'
  split at h
  · simp only [*] at h'
    exact h'.2.1
  · exact h.elim

theorem Remembers.not_releases (h : m.Remembers t) (l : Endpoint) : ¬m.Releases l := by
  unfold Remembers at h
  split at h
  · rintro (⟨i, a, hc, -⟩ | ⟨u, hc, -⟩) <;> simp_all [Claims, Event.Closes]
  · exact h.elim

/-- An origin is pending after a moment that records it, or if it was and the
moment does not release it. -/
theorem after_pending :
    m.after.pending.get? l = some r ↔
      m.Records ⟨l, r⟩ ∨ (¬m.Releases l ∧ m.tables.pending.get? l = some r) := by
  simp only [records_iff]
  rcases m.pending_cases with ⟨u, hr, ha⟩ | ⟨i, a, hc, ha⟩ | ⟨u, he, ha⟩ | ⟨hr, hc, he, ha⟩ <;> rw [ha]
  · have hn := hr.not_releases l
    rw [Table.get?_tryAdd]
    by_cases hu : u = ⟨l, r⟩
    · subst hu
      by_cases hp : m.tables.pending.get? l = none <;> by_cases hm : m.tables.pending.HasRoom l <;>
        simp [hr, hn, hp, hm]
    · have hs : ¬m.Remembers ⟨l, r⟩ := fun h => hu (hr.unique h)
      obtain ⟨uo, up⟩ := u
      by_cases hl : uo = l
      · subst hl
        have hp : up ≠ r := fun h => hu (by rw [h])
        by_cases hg : m.tables.pending.get? uo = none <;> by_cases hm : m.tables.pending.HasRoom uo <;>
          simp [hs, hn, hg, hm, hp]
      · simp [hs, hn, hl]
  · have hn : m.Releases l ↔ a.peer = l := by
      refine ⟨?_, fun h => .inl ⟨i, a, hc, h⟩⟩
      rintro (⟨i', a', hc', rfl⟩ | ⟨u, hu, -⟩)
      · rw [(hc.unique hc').2]
      · exact (hc.not_closes u hu).elim
    have hs : ¬m.Remembers ⟨l, r⟩ := fun h => h.not_releases a.peer (.inl ⟨i, a, hc, rfl⟩)
    rw [Table.get?_remove]
    by_cases hl : a.peer = l <;> simp [hs, hn, hl]
  · have hn : m.Releases l ↔ u.own = l := by
      refine ⟨?_, fun h => .inr ⟨u, he, h⟩⟩
      rintro (⟨i', a', hc', -⟩ | ⟨u', hu', rfl⟩)
      · exact (hc'.not_closes u he).elim
      · rw [he.unique hu']
    have hs : ¬m.Remembers ⟨l, r⟩ := fun h => h.not_releases u.own (.inr ⟨u, he, rfl⟩)
    rw [Table.get?_remove]
    by_cases hl : u.own = l <;> simp [hs, hn, hl]
  · have hn : ¬m.Releases l := by
      rintro (⟨i, a, hc', -⟩ | ⟨u, he', -⟩)
      · exact hc i a hc'
      · exact he u he'
    simp [hr, hn]

/-! ## Proxy rows -/

theorem proxy_of_pairs (h : m.Pairs k p) : m.after.proxy.get? k = some (.fresh p) := by
  rcases h with ⟨hc, hok⟩ | ⟨hc, hok⟩ <;> obtain ⟨_, -, ha⟩ := after_of_claims hc <;>
    rw [ha, Table.get?_insertPair_of_ok hok]
  · by_cases hk : p = k
    · simp [hk]
    · simp [hk]
  · simp

theorem proxy_of_refuses (h : m.Refuses k) : m.after.proxy.get? k = none := by
  obtain ⟨a, e, hc, her⟩ := h
  obtain ⟨_, -, ha⟩ := after_of_claims hc
  rw [ha, Table.get?_insertPair_of_error her]
  simp

theorem proxy_of_closes (h : m.event.Closes k) : m.after.proxy.get? k = none := by
  rw [after_of_closes h, Table.get?_remove]
  simp

/-- What the moment makes of the row of `k`, if it stays. -/
def moves (m : Moment S) (k : Tuple) : ProxyEntry → ProxyEntry :=
  match m.event with
  | .message own => if own = k ∧ k.touches m.before.sidecar = false then .enabled else id
  | .egress frame =>
    match Frame.tuple? frame with
    | .ok t => if t = k then .disabled else id
    | .error _ => id
  | _ => id

@[simp] theorem redirect_moves (m : Moment S) (k : Tuple) (e : ProxyEntry) : (m.moves k e).redirect = e.redirect := by
  cases he : m.event with
  | message own =>
    simp only [moves, he]
    split <;> simp
  | egress frame =>
    cases hf : Frame.tuple? frame with
    | error _ => simp [moves, he, hf]
    | ok t =>
      simp only [moves, he, hf]
      split <;> simp
  | _ => simp [moves, he]

theorem moves_of_sends (h : m.event.Sends t) :
    m.moves k = if t = k ∧ k.touches m.before.sidecar = false then .enabled else id := by
  unfold Event.Sends at h
  split at h
  · rename_i own he
    simp only [moves, he, h]
  · exact h.elim

theorem moves_of_frames (h : m.event.Frames t) : m.moves k = if t = k then .disabled else id := by
  unfold Event.Frames at h
  split at h
  · rename_i frame he
    simp only [moves, he, h]
  · exact h.elim

/-- Only a data unit off the sidecar and a frame move a row. -/
theorem moves_of_still (hs : m.event.Sends k → k.touches m.before.sidecar = true) (hf : ¬m.event.Frames k) :
    m.moves k = id := by
  cases he : m.event with
  | message own =>
    simp only [moves, he]
    refine if_neg fun ⟨hk, ht⟩ => ?_
    simp [hs (by simpa [Event.Sends, he] using hk)] at ht
  | egress frame =>
    simp only [Event.Frames, he] at hf
    cases hd : Frame.tuple? frame with
    | error e => simp only [moves, he, hd]
    | ok t =>
      simp only [moves, he, hd]
      exact if_neg fun h => hf (by rw [hd, h])
  | _ => simp only [moves, he]

theorem Claims.moves_eq {i a : Tuple} (h : m.Claims i a) : m.moves k = id := by
  unfold Claims at h
  split at h
  · simp only [moves, *]
  · exact h.elim

theorem moves_of_closes (h : m.event.Closes t) : m.moves k = id := by
  unfold Event.Closes at h
  split at h
  · simp only [moves, *]
  · exact h.elim

/-- A row that is neither written, given up nor closed stays, and only its
state may move. -/
theorem proxy_of_kept (hp : ∀ p, ¬m.Pairs k p) (hr : ¬m.Refuses k) (hc : ¬m.event.Closes k) :
    m.after.proxy.get? k = (m.tables.proxy.get? k).map (m.moves k) := by
  rcases m.proxy_cases with
    ⟨i, a, hcl, ha⟩ | ⟨u, he, ha⟩ | ⟨u, hs, ht, ha⟩ | ⟨u, hf, ha⟩ | ⟨-, -, hs, hf, ha⟩ <;> rw [ha]
  · rw [hcl.moves_eq, Option.map_id_fun, id]
    cases hok : (m.tables.proxy.insertPair i a).2 with
    | ok u =>
      have ha' : a ≠ k := by rintro rfl; exact hp i (.inr ⟨hcl, hok⟩)
      have hi' : i ≠ k := by rintro rfl; exact hp a (.inl ⟨hcl, hok⟩)
      rw [Table.get?_insertPair_of_ok hok, if_neg ha', if_neg hi']
    | error e =>
      have hi' : i ≠ k := by rintro rfl; exact hr ⟨a, e, hcl, hok⟩
      rw [Table.get?_insertPair_of_error hok, if_neg hi']
  · have hu : u ≠ k := by rintro rfl; exact hc he
    rw [moves_of_closes he, Option.map_id_fun, id, Table.get?_remove, if_neg hu]
  · rw [moves_of_sends hs, Table.get?_enable]
    by_cases hk : u = k
    · subst hk; simp [ht]
    · simp [hk]
  · rw [moves_of_frames hf, Table.get?_disable]
    by_cases hk : u = k <;> simp [hk]
  · rw [moves_of_still (hs k) (hf k), Option.map_id_fun, id]

/-- A row after a moment is one of a new pair or was there before. -/
theorem proxy_of_some {e : ProxyEntry} (h : m.after.proxy.get? k = some e) :
    (∃ p, m.Pairs k p ∧ e = .fresh p) ∨
      (¬m.event.Closes k ∧ ∃ e', m.tables.proxy.get? k = some e' ∧ e = m.moves k e') := by
  by_cases hp : ∃ p, m.Pairs k p
  · obtain ⟨p, hp⟩ := hp
    rw [proxy_of_pairs hp] at h
    cases h
    exact .inl ⟨p, hp, rfl⟩
  by_cases hr : m.Refuses k
  · rw [proxy_of_refuses hr] at h
    cases h
  by_cases hc : m.event.Closes k
  · rw [proxy_of_closes hc] at h
    cases h
  rw [proxy_of_kept (fun p h => hp ⟨p, h⟩) hr hc, Option.map_eq_some_iff] at h
  obtain ⟨e', he', rfl⟩ := h
  exact .inr ⟨hc, e', he', rfl⟩

end Moment

/-! ## Places and rows along a run -/

/-- Places and rows agree in every table, and each has room for `capacity` rows. -/
structure Tables.Sized (capacity : Nat) (T : Tables S) : Prop where
  pending : T.pending.Counted ∧ T.pending.capacity = capacity
  proxy : T.proxy.Counted ∧ T.proxy.capacity = capacity
  redirect : T.redirect.Counted ∧ T.redirect.capacity = capacity

theorem Tables.sized_empty (capacity : Nat) : (Tables.empty capacity : Tables S).Sized capacity :=
  ⟨⟨Table.counted_empty _ _, rfl⟩, ⟨Table.counted_empty _ _, rfl⟩, ⟨Table.counted_empty _ _, rfl⟩⟩

theorem Moment.sized_after {capacity : Nat} {m : Moment S} (h : m.tables.Sized capacity) : m.after.Sized capacity := by
  obtain ⟨⟨hp, hpc⟩, ⟨hx, hxc⟩, ⟨hr, hrc⟩⟩ := h
  constructor
  · rcases m.pending_cases with ⟨u, -, ha⟩ | ⟨i, a, -, ha⟩ | ⟨u, -, ha⟩ | ⟨-, -, -, ha⟩ <;> rw [ha]
    · exact ⟨hp.tryAdd _ _, by simp [hpc]⟩
    · exact ⟨hp.remove _, by simp [hpc]⟩
    · exact ⟨hp.remove _, by simp [hpc]⟩
    · exact ⟨hp, hpc⟩
  · rcases m.proxy_cases with ⟨i, a, -, ha⟩ | ⟨u, -, ha⟩ | ⟨u, -, -, ha⟩ | ⟨u, -, ha⟩ | ⟨-, -, -, -, ha⟩ <;> rw [ha]
    · exact ⟨hx.insertPair _ _, by simp [hxc]⟩
    · exact ⟨hx.remove _, by simp [hxc]⟩
    · exact ⟨hx.move _ _ _, by simp [Table.enable, hxc]⟩
    · exact ⟨hx.move _ _ _, by simp [Table.disable, hxc]⟩
    · exact ⟨hx, hxc⟩
  · rcases m.redirect_cases with ⟨u, s, -, ha⟩ | ⟨u, -, ha⟩ | ⟨-, -, ha⟩ <;> rw [ha]
    · exact ⟨hr.tryPut _ _, by simp [hrc]⟩
    · exact ⟨hr.remove _, by simp [hrc]⟩
    · exact ⟨hr, hrc⟩

/-- In every run from empty tables places and rows agree. -/
theorem Bypass.sized_run (sidecar : Ipv4) (capacity : Nat) (es : List (Event S)) :
    ((Bypass.empty sidecar capacity).run es).tables.Sized capacity := by
  apply run_keeps
  · exact Tables.sized_empty capacity
  · intro m _ h
    exact Moment.sized_after h

/-- Each table reports its refusals under its own name. -/
structure Tables.Named (T : Tables S) : Prop where
  pending : T.pending.name = .pendingOrigin
  proxy : T.proxy.name = .proxy
  redirect : T.redirect.name = .redirect

theorem Moment.named_after {m : Moment S} (h : m.tables.Named) : m.after.Named := by
  constructor
  · rcases m.pending_cases with ⟨u, -, ha⟩ | ⟨i, a, -, ha⟩ | ⟨u, -, ha⟩ | ⟨-, -, -, ha⟩ <;> rw [ha] <;>
      simp [h.pending]
  · rcases m.proxy_cases with ⟨i, a, -, ha⟩ | ⟨u, -, ha⟩ | ⟨u, -, -, ha⟩ | ⟨u, -, ha⟩ | ⟨-, -, -, -, ha⟩ <;> rw [ha] <;>
      simp [Table.enable, Table.disable, h.proxy]
  · rcases m.redirect_cases with ⟨u, s, -, ha⟩ | ⟨u, -, ha⟩ | ⟨-, -, ha⟩ <;> rw [ha] <;>
      simp [h.redirect]

theorem Bypass.named_run (sidecar : Ipv4) (capacity : Nat) (es : List (Event S)) :
    ((Bypass.empty sidecar capacity).run es).tables.Named := by
  apply run_keeps
  · exact ⟨rfl, rfl, rfl⟩
  · intro m _ h
    exact Moment.named_after h

end Splice
