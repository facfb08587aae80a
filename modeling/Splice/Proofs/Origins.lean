import Splice.Proofs.Orderly
/-!
# Pending origins are neither duplicated nor lost

An origin is recorded once, and then either an accept takes it, or it is dropped
as a socket at its endpoint closes, or it is pending still. `Moment.balance` is
this account for one moment; over a run it gives as many records as ends. So no
socket is paired more often than its origin was recorded, and two accepts never
take one record.
-/

namespace Splice

variable {S : Type}

/-! ## The ends of an origin -/

namespace Moment

section Ends
variable (m : Moment S) (t : Tuple)

/-- An accept claims the origin that the socket of `t` left pending. -/
def Takes : Prop := ∃ acceptor, m.Claims t acceptor

/-- An accept takes the origin of `t`, and the two sockets are paired. -/
def Begins : Prop := ∃ acceptor, m.Joins t acceptor

/-- A socket at the own endpoint of `t` closes while the origin of `t` is pending there. -/
def Drops : Prop := ∃ u, m.event.Closes u ∧ u.own = t.own ∧ m.tables.pending.get? t.own = some t.peer

instance : Decidable (m.Remembers t) :=
  match m with
  | ⟨b, .connected s⟩ =>
    inferInstanceAs (Decidable (s.isIpv4 = true ∧ s.tuple = t ∧ t.own.addr ≠ b.sidecar ∧ t.own.addr ≠ t.peer.addr))
  | ⟨_, .accepted _⟩ | ⟨_, .stateChanged _ _⟩ | ⟨_, .message _⟩ | ⟨_, .egress _⟩ => inferInstanceAs (Decidable False)

instance : Decidable (m.Records t) := decidable_of_iff _ records_iff.symm

instance (acceptor : Tuple) : Decidable (m.Claims t acceptor) :=
  match m with
  | ⟨b, .accepted s⟩ =>
    inferInstanceAs (Decidable (s.isIpv4 = true ∧ s.tuple = acceptor ∧ t.own = acceptor.peer ∧
      b.tables.pending.get? acceptor.peer = some t.peer))
  | ⟨_, .connected _⟩ | ⟨_, .stateChanged _ _⟩ | ⟨_, .message _⟩ | ⟨_, .egress _⟩ => inferInstanceAs (Decidable False)

instance (acceptor : Tuple) : Decidable (m.Joins t acceptor) := inferInstanceAs (Decidable (_ ∧ _))

instance : Decidable (m.Takes t) :=
  match m with
  | ⟨b, .accepted s⟩ =>
    decidable_of_iff ((⟨b, .accepted s⟩ : Moment S).Claims t s.tuple) ⟨fun h => ⟨_, h⟩, fun ⟨_, h⟩ => h.2.1 ▸ h⟩
  | ⟨_, .connected _⟩ | ⟨_, .stateChanged _ _⟩ | ⟨_, .message _⟩ | ⟨_, .egress _⟩ => isFalse fun ⟨_, h⟩ => h

instance : Decidable (m.Begins t) :=
  match m with
  | ⟨b, .accepted s⟩ =>
    decidable_of_iff ((⟨b, .accepted s⟩ : Moment S).Joins t s.tuple) ⟨fun h => ⟨_, h⟩, fun ⟨_, h⟩ => h.1.2.1 ▸ h⟩
  | ⟨_, .connected _⟩ | ⟨_, .stateChanged _ _⟩ | ⟨_, .message _⟩ | ⟨_, .egress _⟩ => isFalse fun ⟨_, h, _⟩ => h

instance : Decidable (m.Drops t) :=
  match m with
  | ⟨b, .stateChanged s state⟩ =>
    decidable_of_iff ((s.isIpv4 = true ∧ state = .close) ∧ s.tuple.own = t.own ∧
        b.tables.pending.get? t.own = some t.peer)
      ⟨fun ⟨⟨hi, hc⟩, h⟩ => ⟨s.tuple, ⟨hi, hc, rfl⟩, h⟩, fun ⟨_, ⟨hi, hc, hu⟩, h⟩ => ⟨⟨hi, hc⟩, hu ▸ h⟩⟩
  | ⟨_, .connected _⟩ | ⟨_, .accepted _⟩ | ⟨_, .message _⟩ | ⟨_, .egress _⟩ => isFalse fun ⟨_, h, _⟩ => h

end Ends

variable {m : Moment S} {t : Tuple}

/-- An origin is recorded only where none is pending. -/
theorem Records.not_pending (h : m.Records t) : m.tables.pending.get? t.own ≠ some t.peer := by
  obtain ⟨-, hnone, -⟩ := records_iff.1 h
  rw [hnone]
  exact nofun

theorem Takes.pending (h : m.Takes t) : m.tables.pending.get? t.own = some t.peer := by
  obtain ⟨acceptor, hc⟩ := h
  exact hc.pending

theorem Begins.takes (h : m.Begins t) : m.Takes t := by
  obtain ⟨acceptor, hc, -⟩ := h
  exact ⟨acceptor, hc⟩

theorem Takes.not_drops (h : m.Takes t) : ¬m.Drops t := by
  obtain ⟨acceptor, hc⟩ := h
  rintro ⟨u, hu, -⟩
  exact hc.not_closes u hu

theorem releases_iff (hp : m.tables.pending.get? t.own = some t.peer) :
    m.Releases t.own ↔ m.Takes t ∨ m.Drops t := by
  constructor
  · rintro (⟨i, a, hc, ha⟩ | ⟨u, hu, ho⟩)
    · have hi : i.own = t.own := hc.own_eq.trans ha
      have hpeer : i.peer = t.peer := Option.some.inj (hc.pending.symm.trans (hi ▸ hp))
      obtain rfl : i = t := by cases i; cases t; simp_all only
      exact .inl ⟨a, hc⟩
    · exact .inr ⟨u, hu, ho, hp⟩
  · rintro (⟨a, hc⟩ | ⟨u, hu, ho, -⟩)
    · exact .inl ⟨t, a, hc, hc.own_eq.symm⟩
    · exact .inr ⟨u, hu, ho⟩

theorem not_pending_after_takes (h : m.Takes t) : m.after.pending.get? t.own ≠ some t.peer := by
  intro hafter
  rcases after_pending.1 hafter with hr | ⟨hn, -⟩
  · exact hr.not_pending h.pending
  · exact hn ((releases_iff h.pending).2 (.inl h))

/-- What is recorded or was pending is taken, dropped or still pending. -/
theorem balance (m : Moment S) (t : Tuple) :
    (if m.Records t then 1 else 0) + (if m.tables.pending.get? t.own = some t.peer then 1 else 0) =
      (if m.Takes t then 1 else 0) + (if m.Drops t then 1 else 0) +
        if m.after.pending.get? t.own = some t.peer then 1 else 0 := by
  have hafter : m.after.pending.get? t.own = some t.peer ↔
      m.Records t ∨ (¬m.Releases t.own ∧ m.tables.pending.get? t.own = some t.peer) := after_pending
  by_cases hp : m.tables.pending.get? t.own = some t.peer
  · have hr : ¬m.Records t := fun hr => hr.not_pending hp
    rw [releases_iff hp] at hafter
    by_cases ht : m.Takes t
    · simp [hafter, hp, hr, ht, ht.not_drops]
    · by_cases hd : m.Drops t <;> simp [hafter, hp, hr, ht, hd]
  · have ht : ¬m.Takes t := fun ht => hp ht.pending
    have hd : ¬m.Drops t := by
      rintro ⟨u, -, -, hd⟩
      exact hp hd
    by_cases hr : m.Records t <;> simp [hafter, hp, hr, ht, hd]

end Moment

/-! ## The account of a run -/

theorem Bypass.balance_run (b : Bypass S) (es : List (Event S)) (t : Tuple) :
    (b.history es).countP (·.Records t) + (if b.tables.pending.get? t.own = some t.peer then 1 else 0) =
      (b.history es).countP (·.Takes t) + (b.history es).countP (·.Drops t) +
        if (b.run es).tables.pending.get? t.own = some t.peer then 1 else 0 := by
  induction es using List.reverseRecOn with
  | nil =>
    simp only [history, List.countP_nil, Nat.zero_add]
    rfl
  | append_singleton es e ih =>
    have hbalance := Moment.balance ⟨b.run es, e⟩ t
    rw [show (⟨b.run es, e⟩ : Moment S).tables = (b.run es).tables from rfl] at hbalance
    simp only [history_snoc, List.countP_append, List.countP_singleton, decide_eq_true_eq, after_run]
    omega

section Runs
variable (sidecar : Ipv4) (capacity : Nat) {pre mid : List (Event S)} {e e' : Event S} {t : Tuple}

theorem records_eq (es : List (Event S)) (t : Tuple) :
    ((Bypass.empty sidecar capacity).history es).countP (·.Records t) =
      ((Bypass.empty sidecar capacity).history es).countP (·.Takes t) +
        ((Bypass.empty sidecar capacity).history es).countP (·.Drops t) +
        if ((Bypass.empty sidecar capacity).run es).tables.pending.get? t.own = some t.peer then 1 else 0 := by
  rw [← Bypass.balance_run]
  simp [Bypass.empty, Tables.empty]

theorem begins_lt_records (h : (⟨(Bypass.empty sidecar capacity).run pre, e⟩ : Moment S).Begins t) :
    ((Bypass.empty sidecar capacity).history pre).countP (·.Begins t) <
      ((Bypass.empty sidecar capacity).history pre).countP (·.Records t) := by
  have hpending : ((Bypass.empty sidecar capacity).run pre).tables.pending.get? t.own = some t.peer := h.takes.pending
  have hle : ((Bypass.empty sidecar capacity).history pre).countP (·.Begins t) ≤
      ((Bypass.empty sidecar capacity).history pre).countP (·.Takes t) := by
    apply List.countP_mono_left
    intro m _ hm
    exact decide_eq_true (of_decide_eq_true hm).takes
  have hrecords := records_eq sidecar capacity pre t
  rw [if_pos hpending] at hrecords
  omega

/-- Once taken, an origin is not taken again before it is recorded again. -/
theorem recorded_between_takes {b : Bypass S} (h : (⟨b, e⟩ : Moment S).Takes t)
    (h' : (⟨b.run (e :: mid), e'⟩ : Moment S).Takes t) : ∃ m ∈ (b.step e).history mid, m.Records t := by
  by_contra hnone
  have hgone : ((b.step e).run mid).tables.pending.get? t.own ≠ some t.peer := by
    apply Bypass.run_keeps (P := fun T => T.pending.get? t.own ≠ some t.peer)
    · exact Moment.not_pending_after_takes h
    · intro m hm hn hafter
      rcases Moment.after_pending.1 hafter with hr | ⟨-, hp⟩
      · exact hnone ⟨m, hm, hr⟩
      · exact hn hp
  exact hgone h'.pending

end Runs

/-- Of two accepts that come for one origin the second finds it taken. -/
example :
    let dialer : Tuple := ⟨⟨⟨10, 0, 0, 5⟩, 40000⟩, ⟨⟨10, 0, 0, 9⟩, 8080⟩⟩
    let first : Tuple := ⟨⟨⟨10, 0, 0, 5⟩, 15001⟩, dialer.own⟩
    let second : Tuple := ⟨⟨⟨10, 0, 0, 5⟩, 15006⟩, dialer.own⟩
    let history := (Bypass.empty defaultSidecar 4).history
      [.connected ⟨.inet, dialer, 1⟩, .accepted ⟨.inet, first, 2⟩, .accepted ⟨.inet, second, 3⟩]
    history.countP (·.Records dialer) = 1 ∧ history.countP (·.Takes dialer) = 1 := by
  decide +kernel

end Splice
