import Splice.Proofs.Rows
/-!
# Redirects follow the history

Whether a data unit is redirected, where to and into which socket is settled by
what happened to two sockets: to the sender since its latest pairing, to the
target since its latest registration. A row of the proxy table and a row of the
redirect table are each read off the history first; a verdict looks at one of
each.
-/

namespace Splice

variable {S : Type}

namespace Moment

variable {m : Moment S} {k p q : Tuple}

/-- The pairing of `k` is over: its socket closes, it is paired anew, or a new
pair in its place is refused. -/
def Parts (m : Moment S) (k : Tuple) : Prop := m.event.Closes k ∨ (∃ p, m.Pairs k p) ∨ m.Refuses k

theorem Pairs.unique (h : m.Pairs k p) (h' : m.Pairs k q) : p = q := by
  have hf : some (ProxyEntry.fresh p) = some (.fresh q) := (proxy_of_pairs h).symm.trans (proxy_of_pairs h')
  simpa [ProxyEntry.fresh] using hf

theorem proxy_of_not_parts (h : ¬m.Parts k) : m.after.proxy.get? k = (m.tables.proxy.get? k).map (m.moves k) :=
  proxy_of_kept (fun p hp => h (.inr (.inl ⟨p, hp⟩))) (fun hr => h (.inr (.inr hr))) fun hc => h (.inl hc)

/-- After a moment that parts `k` its row is a fresh one or gone. -/
theorem proxy_of_parts (h : m.Parts k) (st : ProxyState) :
    m.after.proxy.get? k = some ⟨p, st⟩ ↔ m.Pairs k p ∧ st = .init := by
  by_cases hp : ∃ q, m.Pairs k q
  · obtain ⟨q, hq⟩ := hp
    have hs : m.Pairs k p ↔ q = p := ⟨fun h => hq.unique h, fun h => h ▸ hq⟩
    rw [proxy_of_pairs hq, hs]
    simp [ProxyEntry.fresh, eq_comm]
  · have hn : m.after.proxy.get? k = none := by
      rcases h with h | h | h
      · exact proxy_of_closes h
      · exact (hp h).elim
      · exact proxy_of_refuses h
    rw [hn]
    simp only [reduceCtorEq, false_iff]
    exact fun h => hp ⟨p, h.1⟩

section Offside
variable (hk : k.touches m.before.sidecar = false)
include hk

/-- A row is untouched after its pair is written, and stays so until a data unit
or a frame of its socket. -/
theorem after_init :
    m.after.proxy.get? k = some ⟨p, .init⟩ ↔
      m.Pairs k p ∨
        (¬((m.Parts k ∨ m.event.Frames k) ∨ m.event.Sends k) ∧ m.tables.proxy.get? k = some ⟨p, .init⟩) := by
  by_cases hparts : m.Parts k
  · simp [proxy_of_parts hparts, hparts]
  have hp : ¬m.Pairs k p := fun h => hparts (.inr (.inl ⟨p, h⟩))
  rw [proxy_of_not_parts hparts]
  by_cases hf : m.event.Frames k
  · rw [moves_of_frames hf]
    simp [hp, hf, ProxyEntry.disabled]
  by_cases hs : m.event.Sends k
  · rw [moves_of_sends hs, if_pos ⟨rfl, hk⟩]
    simp only [hp, hs, or_true, not_true_eq_false, false_and, or_false, iff_false, Option.map_eq_some_iff, not_exists,
      not_and]
    rintro ⟨q, st⟩ -
    cases st <;> simp [ProxyEntry.enabled]
  · rw [moves_of_still (fun h => (hs h).elim) hf]
    simp [hp, hparts, hf, hs]

/-- A row becomes enabled with the first data unit that finds it untouched. -/
theorem after_enabled :
    m.after.proxy.get? k = some ⟨p, .enabled⟩ ↔
      ¬(m.Parts k ∨ m.event.Frames k) ∧
        (m.tables.proxy.get? k = some ⟨p, .enabled⟩ ∨
          (m.event.Sends k ∧ m.tables.proxy.get? k = some ⟨p, .init⟩)) := by
  by_cases hparts : m.Parts k
  · simp [proxy_of_parts hparts, hparts]
  rw [proxy_of_not_parts hparts]
  by_cases hf : m.event.Frames k
  · rw [moves_of_frames hf]
    simp [hf, ProxyEntry.disabled]
  by_cases hs : m.event.Sends k
  · rw [moves_of_sends hs, if_pos ⟨rfl, hk⟩]
    simp only [hparts, hf, hs, or_self, not_false_eq_true, true_and, Option.map_eq_some_iff]
    constructor
    · rintro ⟨⟨q, st⟩, hg, he⟩
      cases st <;> simp [ProxyEntry.enabled] at he
      · exact .inr (he ▸ hg)
      · exact .inl (he ▸ hg)
    · rintro (hg | hg) <;> exact ⟨_, hg, rfl⟩
  · rw [moves_of_still (fun h => (hs h).elim) hf]
    simp [hparts, hf, hs]

end Offside

end Moment

/-! ## Rows read off a history -/

/-- The redirect table took `socket` as the owner of `t`, has taken no other
since, and the socket has not closed. -/
def Registered (t : Tuple) (socket : S) (h : List (Moment S)) : Prop :=
  Since (·.Registers t socket) (fun m => m.event.Closes t ∨ ∃ other, m.Registers t other) h

/-- The latest pairing of `own` is with `p` and is not over, a data unit of `own`
came after it, and no frame of `own` did. -/
def Spliced (own p : Tuple) (h : List (Moment S)) : Prop :=
  SinceThen (·.Pairs own p) (fun m => m.Parts own ∨ m.event.Frames own) (·.event.Sends own) h

section Runs
variable (sidecar : Ipv4) (capacity : Nat) (es : List (Event S))

theorem redirect_iff_registered (t : Tuple) (socket : S) :
    ((Bypass.empty sidecar capacity).run es).tables.redirect.get? t = some socket ↔
      Registered t socket ((Bypass.empty sidecar capacity).history es) := by
  induction es using List.reverseRecOn with
  | nil => simpa [Bypass.run, Bypass.empty, Tables.empty, Bypass.history, Registered] using not_since_nil
  | append_singleton es e ih =>
    rw [Bypass.after_run, Bypass.history_snoc, Registered, since_snoc, Moment.after_redirect, ← Registered, ← ih]
    simp only [not_or, not_exists, and_assoc]
    rfl

/-- Off the sidecar a row's partner and state are those of the latest pairing
and what came after it. -/
theorem proxy_iff_history {k : Tuple} (hk : k.touches sidecar = false) (p : Tuple) :
    let row := ((Bypass.empty sidecar capacity).run es).tables.proxy.get? k
    let h := (Bypass.empty sidecar capacity).history es
    (row = some ⟨p, .init⟩ ↔
        Since (·.Pairs k p) (fun m => (m.Parts k ∨ m.event.Frames k) ∨ m.event.Sends k) h) ∧
      (row = some ⟨p, .enabled⟩ ↔ Spliced k p h) := by
  induction es using List.reverseRecOn with
  | nil =>
    simpa [Bypass.run, Bypass.empty, Tables.empty, Bypass.history, Spliced] using
      And.intro not_since_nil not_sinceThen_nil
  | append_singleton es e ih =>
    obtain ⟨hi, he⟩ := ih
    have hs : k.touches ((Bypass.empty sidecar capacity : Bypass S).run es).sidecar = false := by
      rw [Bypass.sidecar_run]; exact hk
    refine ⟨?_, ?_⟩
    · rw [Bypass.after_run, Bypass.history_snoc, since_snoc, ← hi]
      exact Moment.after_init (m := ⟨_, e⟩) hs
    · rw [Bypass.after_run, Bypass.history_snoc, Spliced, sinceThen_snoc, since_iff_armed, ← Spliced, ← he, ← hi]
      refine (Moment.after_enabled (m := ⟨_, e⟩) hs).trans (and_congr_right fun _ => ?_)
      constructor
      · rintro (h | ⟨hs, h⟩)
        · exact .inl h
        · exact .inr ⟨hs, .inl h⟩
      · rintro (h | ⟨hs, h | h⟩)
        · exact .inl h
        · exact .inr ⟨hs, h⟩
        · exact .inl h

/-- Handing a unit to the owner of `t` succeeds where a socket is registered. -/
theorem forward_iff_registered (own t target : Tuple) (socket : S) :
    (((Bypass.empty sidecar capacity).run es).tables.forward own t).reply = .redirect target socket ↔
      target = t ∧ Registered target socket ((Bypass.empty sidecar capacity).history es) := by
  rw [← redirect_iff_registered, Tables.reply_forward]
  cases hg : ((Bypass.empty sidecar capacity).run es).tables.redirect.get? t with
  | none =>
    simp only [reduceCtorEq, false_iff, not_and]
    rintro rfl
    simp [hg]
  | some other =>
    simp only [Verdict.redirect.injEq, eq_comm (a := t)]
    refine and_congr_right fun ht => ?_
    subst ht
    simp [hg]

/-- A data unit of `own` is redirected exactly when the history names its target
and the socket there. Off the sidecar the target is the latest partner of `own`,
on it `own` read backwards. -/
theorem redirects_iff_history (own target : Tuple) (socket : S) :
    let h := (Bypass.empty sidecar capacity).history es
    (((Bypass.empty sidecar capacity).run es).handle (.message own)).reply =
        .verdict (.redirect target socket) ↔
      (if own.touches sidecar then target = own.reversed else Spliced own target h) ∧
        Registered target socket h := by
  intro h
  let T := ((Bypass.empty sidecar capacity).run es).tables
  have hforward (t : Tuple) :
      (T.forward own t).reply = .redirect target socket ↔ target = t ∧ Registered target socket h :=
    forward_iff_registered sidecar capacity es own t target socket
  have hreply : (((Bypass.empty sidecar capacity).run es).handle (.message own)).reply =
      .verdict (T.onMessage sidecar own).reply := by
    simp only [Bypass.handle, Bypass.sidecar_run, T]
    rfl
  rw [hreply, Tables.reply_onMessage, Reply.verdict.injEq]
  by_cases hs : own.touches sidecar
  · rw [if_pos hs, if_pos hs]
    exact hforward own.reversed
  rw [if_neg hs, if_neg hs]
  have hrow : T.proxy.get? own = some ⟨target, .enabled⟩ ↔ Spliced own target h :=
    (proxy_iff_history sidecar capacity es (by simpa using hs) target).2
  rw [← hrow]
  split
  · rename_i partner hg
    rw [hforward, hg]
    simp only [Option.some.injEq, ProxyEntry.mk.injEq, and_true, eq_comm]
  · rename_i hn
    simp only [reduceCtorEq, false_iff, not_and]
    exact fun hg => (hn target hg).elim

end Runs

end Splice
