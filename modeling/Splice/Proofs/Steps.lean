import Splice.Proofs.History
/-!
# What a moment does to each table

For every table the moments that touch it are listed, each with the one
operation it performs; all other moments leave the table as it is. The handlers
are not opened again after this module.
-/

namespace Splice

variable {S : Type}

namespace Event

variable {e : Event S} {t u : Tuple}

theorem Closes.unique (h : e.Closes t) (h' : e.Closes u) : t = u := by
  unfold Closes at h h'
  split at h
  · exact h.2.2.symm.trans h'.2.2
  · exact h.elim

theorem Sends.unique (h : e.Sends t) (h' : e.Sends u) : t = u := by
  unfold Sends at h h'
  split at h
  · exact h.symm.trans h'
  · exact h.elim

end Event

namespace Moment

variable {m : Moment S} {t initiator acceptor : Tuple} {socket : S}

/-! ## The handler of an event -/

theorem after_connected {s : Socket S} (h : m.event = .connected s) :
    m.after = (m.tables.connected m.before.sidecar s).tables := by
  simp only [after, Bypass.step, Bypass.handle, h]; rfl

theorem after_accepted {s : Socket S} (h : m.event = .accepted s) :
    m.after = (m.tables.accepted m.before.sidecar s).tables := by
  simp only [after, Bypass.step, Bypass.handle, h]; rfl

theorem after_stateChanged {s : Socket S} {state : TcpState} (h : m.event = .stateChanged s state) :
    m.after = (m.tables.stateChanged s state).tables := by
  simp only [after, Bypass.step, Bypass.handle, h]; rfl

theorem after_message {own : Tuple} (h : m.event = .message own) :
    m.after = (m.tables.onMessage m.before.sidecar own).tables := by
  simp only [after, Bypass.step, Bypass.handle, h]; rfl

theorem after_egress {frame : Octets} (h : m.event = .egress frame) :
    m.after = (m.tables.onEgress frame).tables := by
  simp only [after, Bypass.step, Bypass.handle, h]; rfl

/-- A processed close removes the socket's row from every table. -/
theorem after_of_closes (h : m.event.Closes t) :
    m.after = { m.tables with
      proxy := (m.tables.proxy.remove t).1
      pending := (m.tables.pending.remove t.own).1
      redirect := (m.tables.redirect.remove t).1 } := by
  unfold Event.Closes at h
  split at h
  · rename_i s state he
    obtain ⟨hi, rfl, rfl⟩ := h
    rw [after_stateChanged he, Tables.tables_stateChanged, if_pos ⟨hi, rfl⟩]
  · exact h.elim

/-- An accept that claims an origin takes it, writes the pair and offers the
accepted socket. -/
theorem after_of_claims (h : m.Claims initiator acceptor) :
    ∃ socket, m.Offers acceptor socket ∧
      m.after = { m.tables with
        pending := (m.tables.pending.remove acceptor.peer).1
        proxy := (m.tables.proxy.insertPair initiator acceptor).1
        redirect := m.tables.redirect.tryPut acceptor socket } := by
  unfold Claims at h
  split at h
  · rename_i s he
    obtain ⟨hi, rfl, ho, hp⟩ := h
    refine ⟨s.handle, ?_, ?_⟩
    · simp only [Offers, he, true_and]
      exact ⟨hi, .inr ⟨_, hp⟩⟩
    · rw [after_accepted he, Tables.tables_accepted, if_neg (by simp [hi]), hp]
      simp only [Tables.initiatorOf, ← ho]
  · exact h.elim

/-! ## One moment does one thing -/

theorem Offers.unique {t' : Tuple} {socket' : S} (h : m.Offers t socket) (h' : m.Offers t' socket') :
    t = t' ∧ socket = socket' := by
  unfold Offers at h h'
  split at h
  all_goals first | exact h.elim | simp only [*] at h'
  all_goals obtain ⟨-, rfl, rfl, -⟩ := h; obtain ⟨-, rfl, rfl, -⟩ := h'; exact ⟨rfl, rfl⟩

theorem Claims.unique {i a : Tuple} (h : m.Claims initiator acceptor) (h' : m.Claims i a) :
    initiator = i ∧ acceptor = a := by
  unfold Claims at h h'
  split at h
  · simp only [*] at h'
    obtain ⟨-, rfl, ho, hp⟩ := h
    obtain ⟨-, rfl, ho', hp'⟩ := h'
    obtain ⟨io, ip⟩ := initiator
    obtain ⟨io', ip'⟩ := i
    simp_all
  · exact h.elim

theorem Offers.not_closes (h : m.Offers t socket) (u : Tuple) : ¬m.event.Closes u := by
  unfold Offers at h
  split at h <;> simp_all [Event.Closes]

theorem Claims.not_closes (h : m.Claims initiator acceptor) (u : Tuple) : ¬m.event.Closes u := by
  unfold Claims at h
  split at h <;> simp_all [Event.Closes]

/-! ## The redirect table -/

theorem redirect_of_offers (h : m.Offers t socket) : m.after.redirect = m.tables.redirect.tryPut t socket := by
  unfold Offers at h
  split at h
  · rename_i s he
    obtain ⟨hi, rfl, rfl, ha⟩ := h
    rw [after_connected he, Tables.tables_connected, if_neg (by simp [hi])]
    split
    · rfl
    · rename_i hs
      rw [if_neg (ha.resolve_left hs)]
  · rename_i s he
    obtain ⟨hi, rfl, rfl, ha⟩ := h
    rw [after_accepted he, Tables.tables_accepted, if_neg (by simp [hi])]
    split
    · rename_i ho
      obtain hs | ⟨o, ho'⟩ := ha
      · rw [if_pos hs]
      · simp [ho] at ho'
    · rfl
  · exact h.elim

theorem redirect_of_none (ho : ∀ t socket, ¬m.Offers t socket) (hc : ∀ t, ¬m.event.Closes t) :
    m.after.redirect = m.tables.redirect := by
  cases he : m.event with
  | connected s =>
    have ho := ho s.tuple s.handle
    simp only [Offers, he, true_and, not_and, not_or, not_not] at ho
    rw [after_connected he, Tables.tables_connected]
    cases hi : s.isIpv4
    · rfl
    · obtain ⟨hs, hp⟩ := ho hi
      rw [if_neg (by simp), if_neg hs, if_pos hp]
  | accepted s =>
    have ho := ho s.tuple s.handle
    simp only [Offers, he, true_and, not_and, not_or, not_exists] at ho
    rw [after_accepted he, Tables.tables_accepted]
    cases hi : s.isIpv4
    · rfl
    · obtain ⟨hs, hp⟩ := ho hi
      rw [if_neg (by simp), Option.eq_none_iff_forall_ne_some.2 hp]
      simp only [if_neg hs]
  | stateChanged s state =>
    have hc := hc s.tuple
    simp only [Event.Closes, he, and_true] at hc
    rw [after_stateChanged he, Tables.tables_stateChanged, if_neg hc]
  | message own => rw [after_message he, Tables.redirect_onMessage]
  | egress frame =>
    rw [after_egress he, Tables.tables_onEgress]
    split <;> rfl

theorem redirect_cases (m : Moment S) :
    (∃ t socket, m.Offers t socket ∧ m.after.redirect = m.tables.redirect.tryPut t socket) ∨
      (∃ t, m.event.Closes t ∧ m.after.redirect = (m.tables.redirect.remove t).1) ∨
      ((∀ t socket, ¬m.Offers t socket) ∧ (∀ t, ¬m.event.Closes t) ∧ m.after.redirect = m.tables.redirect) := by
  by_cases ho : ∃ t socket, m.Offers t socket
  · obtain ⟨t, socket, ho⟩ := ho
    exact .inl ⟨t, socket, ho, redirect_of_offers ho⟩
  by_cases hc : ∃ t, m.event.Closes t
  · obtain ⟨t, hc⟩ := hc
    exact .inr (.inl ⟨t, hc, by rw [after_of_closes hc]⟩)
  have ho' : ∀ t socket, ¬m.Offers t socket := fun t socket h => ho ⟨t, socket, h⟩
  have hc' : ∀ t, ¬m.event.Closes t := fun t h => hc ⟨t, h⟩
  exact .inr (.inr ⟨ho', hc', redirect_of_none ho' hc'⟩)

/-! ## The pending origins -/

theorem pending_of_remembers (h : m.Remembers t) : m.after.pending = m.tables.pending.tryAdd t.own t.peer := by
  unfold Remembers at h
  split at h
  · rename_i s he
    obtain ⟨hi, rfl, hs, hp⟩ := h
    rw [after_connected he, Tables.tables_connected, if_neg (by simp [hi]), if_neg hs, if_neg hp]
  · exact h.elim

theorem pending_of_none (hr : ∀ t, ¬m.Remembers t) (hc : ∀ i a, ¬m.Claims i a) (he : ∀ t, ¬m.event.Closes t) :
    m.after.pending = m.tables.pending := by
  cases h : m.event with
  | connected s =>
    have hr := hr s.tuple
    simp only [Remembers, h, true_and, not_and, not_not] at hr
    rw [after_connected h, Tables.tables_connected]
    cases hi : s.isIpv4
    · rfl
    · rw [if_neg (by simp)]
      split
      · rfl
      · rename_i hs
        rw [if_pos (hr hi hs)]
  | accepted s =>
    rw [after_accepted h, Tables.tables_accepted]
    cases hi : s.isIpv4
    · rfl
    · rw [if_neg (by simp)]
      split
      · split <;> rfl
      · rename_i origin ho
        have hc := hc ⟨s.tuple.peer, origin⟩ s.tuple
        simp [Claims, h, hi, ho] at hc
  | stateChanged s state =>
    have he := he s.tuple
    simp only [Event.Closes, h, and_true] at he
    rw [after_stateChanged h, Tables.tables_stateChanged, if_neg he]
  | message own => rw [after_message h, Tables.pending_onMessage]
  | egress frame =>
    rw [after_egress h, Tables.tables_onEgress]
    split <;> rfl

theorem pending_cases (m : Moment S) :
    (∃ t, m.Remembers t ∧ m.after.pending = m.tables.pending.tryAdd t.own t.peer) ∨
      (∃ i a, m.Claims i a ∧ m.after.pending = (m.tables.pending.remove a.peer).1) ∨
      (∃ t, m.event.Closes t ∧ m.after.pending = (m.tables.pending.remove t.own).1) ∨
      ((∀ t, ¬m.Remembers t) ∧ (∀ i a, ¬m.Claims i a) ∧ (∀ t, ¬m.event.Closes t) ∧
        m.after.pending = m.tables.pending) := by
  by_cases hr : ∃ t, m.Remembers t
  · obtain ⟨t, hr⟩ := hr
    exact .inl ⟨t, hr, pending_of_remembers hr⟩
  by_cases hc : ∃ i a, m.Claims i a
  · obtain ⟨i, a, hc⟩ := hc
    obtain ⟨_, -, ha⟩ := after_of_claims hc
    exact .inr (.inl ⟨i, a, hc, by rw [ha]⟩)
  by_cases he : ∃ t, m.event.Closes t
  · obtain ⟨t, he⟩ := he
    exact .inr (.inr (.inl ⟨t, he, by rw [after_of_closes he]⟩))
  have hr' : ∀ t, ¬m.Remembers t := fun t h => hr ⟨t, h⟩
  have hc' : ∀ i a, ¬m.Claims i a := fun i a h => hc ⟨i, a, h⟩
  have he' : ∀ t, ¬m.event.Closes t := fun t h => he ⟨t, h⟩
  exact .inr (.inr (.inr ⟨hr', hc', he', pending_of_none hr' hc' he'⟩))

/-! ## The proxy table -/

theorem proxy_of_sends (h : m.event.Sends t) :
    m.after.proxy = if t.touches m.before.sidecar then m.tables.proxy else (m.tables.proxy.enable t).1 := by
  unfold Event.Sends at h
  split at h
  · rename_i own he
    rw [after_message he, Tables.proxy_onMessage, h]
  · exact h.elim

theorem proxy_of_frames (h : m.event.Frames t) : m.after.proxy = (m.tables.proxy.disable t).1 := by
  unfold Event.Frames at h
  split at h
  · rename_i frame he
    rw [after_egress he, Tables.tables_onEgress, h]
  · exact h.elim

theorem proxy_of_none (hc : ∀ i a, ¬m.Claims i a) (he : ∀ t, ¬m.event.Closes t) (hs : ∀ t, ¬m.event.Sends t)
    (hf : ∀ t, ¬m.event.Frames t) : m.after.proxy = m.tables.proxy := by
  cases h : m.event with
  | connected s =>
    rw [after_connected h, Tables.tables_connected]
    split
    · rfl
    · split
      · rfl
      · split <;> rfl
  | accepted s =>
    rw [after_accepted h, Tables.tables_accepted]
    cases hi : s.isIpv4
    · rfl
    · rw [if_neg (by simp)]
      split
      · split <;> rfl
      · rename_i origin ho
        have hc := hc ⟨s.tuple.peer, origin⟩ s.tuple
        simp [Claims, h, hi, ho] at hc
  | stateChanged s state =>
    have he := he s.tuple
    simp only [Event.Closes, h, and_true] at he
    rw [after_stateChanged h, Tables.tables_stateChanged, if_neg he]
  | message own => exact (hs own (by simp [Event.Sends, h])).elim
  | egress frame =>
    rw [after_egress h, Tables.tables_onEgress]
    split
    · rfl
    · rename_i t ht
      exact (hf t (by simpa [Event.Frames, h] using ht)).elim

theorem proxy_cases (m : Moment S) :
    (∃ i a, m.Claims i a ∧ m.after.proxy = (m.tables.proxy.insertPair i a).1) ∨
      (∃ t, m.event.Closes t ∧ m.after.proxy = (m.tables.proxy.remove t).1) ∨
      (∃ t, m.event.Sends t ∧ t.touches m.before.sidecar = false ∧ m.after.proxy = (m.tables.proxy.enable t).1) ∨
      (∃ t, m.event.Frames t ∧ m.after.proxy = (m.tables.proxy.disable t).1) ∨
      ((∀ i a, ¬m.Claims i a) ∧ (∀ t, ¬m.event.Closes t) ∧
        (∀ t, m.event.Sends t → t.touches m.before.sidecar = true) ∧ (∀ t, ¬m.event.Frames t) ∧
        m.after.proxy = m.tables.proxy) := by
  by_cases hc : ∃ i a, m.Claims i a
  · obtain ⟨i, a, hc⟩ := hc
    obtain ⟨_, -, ha⟩ := after_of_claims hc
    exact .inl ⟨i, a, hc, by rw [ha]⟩
  by_cases he : ∃ t, m.event.Closes t
  · obtain ⟨t, he⟩ := he
    exact .inr (.inl ⟨t, he, by rw [after_of_closes he]⟩)
  by_cases hf : ∃ t, m.event.Frames t
  · obtain ⟨t, hf⟩ := hf
    exact .inr (.inr (.inr (.inl ⟨t, hf, proxy_of_frames hf⟩)))
  have hc' : ∀ i a, ¬m.Claims i a := fun i a h => hc ⟨i, a, h⟩
  have he' : ∀ t, ¬m.event.Closes t := fun t h => he ⟨t, h⟩
  have hf' : ∀ t, ¬m.event.Frames t := fun t h => hf ⟨t, h⟩
  by_cases hs : ∃ t, m.event.Sends t
  · obtain ⟨t, hs⟩ := hs
    cases ht : t.touches m.before.sidecar
    · exact .inr (.inr (.inl ⟨t, hs, ht, by rw [proxy_of_sends hs]; simp [ht]⟩))
    · refine .inr (.inr (.inr (.inr ⟨hc', he', fun u hu => ?_, hf', by rw [proxy_of_sends hs]; simp [ht]⟩)))
      rw [← hs.unique hu, ht]
  · have hs' : ∀ t, ¬m.event.Sends t := fun t h => hs ⟨t, h⟩
    exact .inr (.inr (.inr (.inr ⟨hc', he', fun u hu => (hs' u hu).elim, hf', proxy_of_none hc' he' hs' hf'⟩)))

end Moment

end Splice
