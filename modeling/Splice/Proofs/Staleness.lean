import Splice.Proofs.Rows
/-!
# No stale rows

A row lives no longer than its socket: whatever order sockets connect, are
accepted and close in, and whatever the tables refuse, every row belongs to a
socket that is established and not yet closed. For the row of an initiator,
which the accept of another socket writes, this rests on the pending origin the
accept claims: it is dropped as its own socket closes.
-/

namespace Splice

variable {S : Type}

/-- The socket of `t` is established by an event of the history and not closed
by any later one. -/
def Open (es : List (Event S)) (t : Tuple) : Prop := Since (Event.Establishes t) (Event.Closes t) es

variable {es : List (Event S)} {e : Event S} {t k : Tuple} {l r : Endpoint} {m : Moment S} {socket : S}

theorem open_snoc : Open (es ++ [e]) t ↔ e.Establishes t ∨ (¬e.Closes t ∧ Open es t) := since_snoc

/-! ## Who writes a row -/

theorem Moment.Records.establishes (h : m.Records t) : m.event.Establishes t := by
  obtain ⟨h, -⟩ := h
  unfold Moment.Remembers at h
  split at h
  · rename_i s he
    rw [he]
    exact ⟨h.1, h.2.1⟩
  · exact h.elim

theorem Moment.Registers.establishes (h : m.Registers t socket) : m.event.Establishes t := by
  obtain ⟨h, -⟩ := h
  unfold Moment.Offers at h
  split at h
  all_goals first | exact h.elim | (rename_i s he; rw [he]; exact ⟨h.1, h.2.1⟩)

theorem Moment.Claims.establishes {initiator acceptor : Tuple} (h : m.Claims initiator acceptor) :
    m.event.Establishes acceptor := by
  unfold Moment.Claims at h
  split at h
  · rename_i s he
    rw [he]
    exact ⟨h.1, h.2.1⟩
  · exact h.elim

theorem Moment.Claims.pending {initiator acceptor : Tuple} (h : m.Claims initiator acceptor) :
    m.tables.pending.get? initiator.own = some initiator.peer := by
  unfold Moment.Claims at h
  split at h
  · rw [h.2.2.1]
    exact h.2.2.2
  · exact h.elim

/-! ## Rows belong to open sockets -/

section Runs
variable (sidecar : Ipv4) (capacity : Nat)

theorem pending_open (h : ((Bypass.empty sidecar capacity).run es).tables.pending.get? l = some r) :
    Open es ⟨l, r⟩ := by
  induction es using List.reverseRecOn with
  | nil => simp [Bypass.run, Bypass.empty, Tables.empty] at h
  | append_singleton es e ih =>
    rw [Bypass.after_run, Moment.after_pending] at h
    rw [open_snoc]
    rcases h with h | ⟨hn, h⟩
    · exact .inl h.establishes
    · exact .inr ⟨fun hc => hn (.inr ⟨⟨l, r⟩, hc, rfl⟩), ih h⟩

theorem redirect_open (h : ((Bypass.empty sidecar capacity).run es).tables.redirect.get? t = some socket) :
    Open es t := by
  induction es using List.reverseRecOn with
  | nil => simp [Bypass.run, Bypass.empty, Tables.empty] at h
  | append_singleton es e ih =>
    rw [Bypass.after_run, Moment.after_redirect] at h
    rw [open_snoc]
    rcases h with h | ⟨hc, -, h⟩
    · exact .inl h.establishes
    · exact .inr ⟨hc, ih h⟩

/-- A pair's initiator is open because its origin was still pending. -/
theorem pairs_open {p : Tuple} (h : (⟨(Bypass.empty sidecar capacity).run es, e⟩ : Moment S).Pairs k p) :
    Open (es ++ [e]) k := by
  rw [open_snoc]
  rcases h with ⟨hc, -⟩ | ⟨hc, -⟩
  · exact .inr ⟨hc.not_closes k, pending_open sidecar capacity hc.pending⟩
  · exact .inl hc.establishes

theorem proxy_open {entry : ProxyEntry}
    (h : ((Bypass.empty sidecar capacity).run es).tables.proxy.get? t = some entry) : Open es t := by
  induction es using List.reverseRecOn generalizing entry with
  | nil => simp [Bypass.run, Bypass.empty, Tables.empty] at h
  | append_singleton es e ih =>
    rw [Bypass.after_run] at h
    rcases Moment.proxy_of_some h with ⟨p, hp, -⟩ | ⟨hc, entry', h, -⟩
    · exact pairs_open sidecar capacity hp
    · exact open_snoc.2 (.inr ⟨hc, ih h⟩)

/-- Every row of a reachable table belongs to an open socket: proxy rows and
registered sockets by their key, a pending origin `l → r` by the tuple of its
two endpoints. So once every established socket has closed again, all three
tables are empty and hold no place. -/
theorem no_stale_rows (es : List (Event S)) :
    let T := ((Bypass.empty sidecar capacity).run es).tables
    (∀ t entry, T.proxy.get? t = some entry → Open es t) ∧
      (∀ t socket, T.redirect.get? t = some socket → Open es t) ∧
      (∀ l r, T.pending.get? l = some r → Open es ⟨l, r⟩) ∧
      ((∀ pre e post t, es = pre ++ e :: post → e.Establishes t → ∃ e' ∈ post, e'.Closes t) →
        (T.pending.rows = ∅ ∧ T.pending.size = 0) ∧ (T.proxy.rows = ∅ ∧ T.proxy.size = 0) ∧
          (T.redirect.rows = ∅ ∧ T.redirect.size = 0)) := by
  intro T
  have hx : ∀ t entry, T.proxy.get? t = some entry → Open es t := fun _ _ => proxy_open sidecar capacity
  have hr : ∀ t socket, T.redirect.get? t = some socket → Open es t := fun _ _ => redirect_open sidecar capacity
  have hp : ∀ l r, T.pending.get? l = some r → Open es ⟨l, r⟩ := fun _ _ => pending_open sidecar capacity
  refine ⟨hx, hr, hp, fun hclosed => ?_⟩
  have hn : ∀ t, ¬Open es t := by
    rintro t ⟨pre, e, post, h, he, hu⟩
    obtain ⟨e', he', hc⟩ := hclosed pre e post t h he
    exact hu e' he' hc
  obtain ⟨⟨cp, -⟩, ⟨cx, -⟩, ⟨cr, -⟩⟩ := Bypass.sized_run sidecar capacity es
  have ep := cp.eq_empty fun l => Option.eq_none_iff_forall_ne_some.2 fun r h => hn _ (hp l r h)
  have ex := cx.eq_empty fun t => Option.eq_none_iff_forall_ne_some.2 fun v h => hn _ (hx t v h)
  have er := cr.eq_empty fun t => Option.eq_none_iff_forall_ne_some.2 fun v h => hn _ (hr t v h)
  refine ⟨?_, ?_, ?_⟩
  · rw [show T.pending = _ from ep]
    exact ⟨rfl, rfl⟩
  · rw [show T.proxy = _ from ex]
    exact ⟨rfl, rfl⟩
  · rw [show T.redirect = _ from er]
    exact ⟨rfl, rfl⟩

/-- Two sockets that pair and then close, the initiator first. -/
theorem no_stale_rows_after_exchange :
    let a : Tuple := ⟨⟨⟨10, 0, 0, 1⟩, 40000⟩, ⟨⟨10, 0, 0, 9⟩, 80⟩⟩
    let b : Tuple := ⟨⟨⟨10, 0, 0, 2⟩, 8080⟩, a.own⟩
    let es : List (Event Nat) := [.connected ⟨.inet, a, 1⟩, .accepted ⟨.inet, b, 2⟩,
      .stateChanged ⟨.inet, a, 1⟩ .close, .stateChanged ⟨.inet, b, 2⟩ .close]
    let T := ((Bypass.empty defaultSidecar 4).run es).tables
    (∀ pre e post t, es = pre ++ e :: post → e.Establishes t → ∃ e' ∈ post, e'.Closes t) ∧
      T.pending.size = 0 ∧ T.proxy.size = 0 ∧ T.redirect.size = 0 := by
  intro a b es T
  have hclosed : ∀ pre e post t, es = pre ++ e :: post → e.Establishes t → ∃ e' ∈ post, e'.Closes t := by
    intro pre e post t h he
    rcases pre with _ | ⟨_, _ | ⟨_, _ | ⟨_, _ | ⟨_, pre⟩⟩⟩⟩ <;>
      simp only [es, List.nil_append, List.cons_append, List.cons.injEq, List.nil_eq, List.append_eq_nil_iff,
        reduceCtorEq, and_false] at h
    · obtain ⟨rfl, rfl⟩ := h
      exact ⟨.stateChanged ⟨.inet, a, 1⟩ .close, by simp, rfl, rfl, he.2⟩
    · obtain ⟨-, rfl, rfl⟩ := h
      exact ⟨.stateChanged ⟨.inet, b, 2⟩ .close, by simp, rfl, rfl, he.2⟩
    · obtain ⟨-, -, rfl, -⟩ := h
      exact he.elim
    · obtain ⟨-, -, -, rfl, -⟩ := h
      exact he.elim
  obtain ⟨⟨-, hp⟩, ⟨-, hx⟩, ⟨-, hr⟩⟩ := (no_stale_rows defaultSidecar 4 es).2.2.2 hclosed
  refine ⟨hclosed, ?_, ?_, ?_⟩
  · simp only [T, hp]
  · simp only [T, hx]
  · simp only [T, hr]

end Runs

end Splice
