import Splice.Proofs.Orderly
/-!
# Pairs

The two rows of a pair are written together, and each goes with its own socket.
So a row can stay behind when its partner has closed, and it still names that
partner when the partner's tuple comes up again and is paired with another
socket. In an orderly history this is the only way symmetry is lost: the
partner's row points back exactly until the partner closes.
-/

namespace Splice

variable {S : Type}

/-- The tuple that the proxy row of `k` names. -/
def Tables.partner? (T : Tables S) (k : Tuple) : Option Tuple := (T.proxy.get? k).map (·.redirect)

/-- A data unit off the sidecar is redirected to the partner that its socket's row names. -/
theorem Tables.partner?_of_redirect {T : Tables S} {sidecar : Ipv4} {own target : Tuple} {socket : S}
    (hs : own.touches sidecar = false) (h : (T.onMessage sidecar own).reply = .redirect target socket) :
    T.partner? own = some target := by
  rw [reply_onMessage, if_neg (by simp [hs])] at h
  split at h
  · rename_i partner hrow
    rw [reply_forward] at h
    split at h <;> cases h
    rw [partner?, hrow]
    rfl
  · cases h

/-- The latest pairing of `k` is with `p` and is not over, and the socket of `p`
has closed since. -/
def Outlives (k p : Tuple) (h : List (Moment S)) : Prop :=
  SinceThen (·.Pairs k p) (·.Parts k) (·.event.Closes p) h

namespace Moment

variable {m : Moment S} {k p : Tuple}

theorem Pairs.symm (h : m.Pairs k p) : m.Pairs p k := h.elim .inr .inl

theorem Pairs.parts (h : m.Pairs k p) : m.Parts k := .inr (.inl ⟨p, h⟩)

theorem Pairs.partner?_after (h : m.Pairs k p) : m.after.partner? k = some p := by
  rw [Tables.partner?, proxy_of_pairs h]
  rfl

/-- A row names `p` after a moment that pairs the two, or if it did and the
moment does not part it. -/
theorem partner?_after : m.after.partner? k = some p ↔ m.Pairs k p ∨ (¬m.Parts k ∧ m.tables.partner? k = some p) := by
  by_cases hparts : m.Parts k
  · simp only [hparts, not_true_eq_false, false_and, or_false]
    refine ⟨fun h => ?_, Pairs.partner?_after⟩
    obtain ⟨⟨_, st⟩, hrow, rfl⟩ := Option.map_eq_some_iff.1 h
    exact ((proxy_of_parts hparts st).1 hrow).1
  · have hp : ¬m.Pairs k p := fun h => hparts h.parts
    have hmoves : (fun e : ProxyEntry => e.redirect) ∘ m.moves k = (·.redirect) := funext (redirect_moves m k)
    simp only [hp, hparts, not_false_eq_true, true_and, false_or, Tables.partner?, proxy_of_not_parts hparts,
      Option.map_map, hmoves]

end Moment

section Runs
variable (sidecar : Ipv4) (capacity : Nat) {es : List (Event S)} {k p : Tuple}

/-- The partner that a row names is that of the latest pairing. -/
theorem partner?_iff_history (es : List (Event S)) (k p : Tuple) :
    ((Bypass.empty sidecar capacity).run es).tables.partner? k = some p ↔
      Since (·.Pairs k p) (·.Parts k) ((Bypass.empty sidecar capacity).history es) := by
  induction es using List.reverseRecOn with
  | nil => simpa [Bypass.run, Bypass.empty, Tables.empty, Tables.partner?, Bypass.history] using not_since_nil
  | append_singleton es e ih =>
    rw [Bypass.after_run, Bypass.history_snoc, since_snoc, Moment.partner?_after, ← ih]
    rfl

/-- The partner's row points back as long as the partner has not closed since. -/
theorem points_back_iff (h : Orderly es)
    (hk : ((Bypass.empty sidecar capacity).run es).tables.partner? k = some p) :
    ((Bypass.empty sidecar capacity).run es).tables.partner? p = some k ↔
      Since (·.Pairs k p) (fun m => m.Parts k ∨ m.event.Closes p)
        ((Bypass.empty sidecar capacity).history es) := by
  induction es using List.reverseRecOn with
  | nil => simp [Bypass.run, Bypass.empty, Tables.empty, Tables.partner?] at hk
  | append_singleton es e ih =>
    obtain ⟨hes, -⟩ := orderly_snoc.1 h
    rw [Bypass.after_run, Moment.partner?_after] at hk
    rw [Bypass.after_run, Bypass.history_snoc, since_snoc, Moment.partner?_after]
    rcases hk with hpair | ⟨hparts, hk⟩
    · exact iff_of_true (.inl hpair.symm) (.inl hpair)
    have hnot : ¬(⟨(Bypass.empty sidecar capacity).run es, e⟩ : Moment S).Pairs k p := fun hp => hparts hp.parts
    have hnot' : ¬(⟨(Bypass.empty sidecar capacity).run es, e⟩ : Moment S).Pairs p k := fun hp => hnot hp.symm
    rw [← ih hes hk]
    simp only [hnot, hnot', hparts, false_or]
    -- The row that points back goes only with its own socket.
    refine and_congr_left fun hback => not_congr ⟨fun hp => ?_, .inl⟩
    obtain ⟨entry, hrow, -⟩ := Option.map_eq_some_iff.1 hback
    exact closes_of_parts sidecar capacity h hrow hp

/-- In an orderly history a row points back from its partner exactly as long as
the partner has not closed since the two were paired. So a data unit off the
sidecar goes to a socket that is paired with another one only where its own
socket's row has outlived its partner. -/
theorem pairs_point_back_until_close (h : Orderly es) :
    let b : Bypass S := (Bypass.empty sidecar capacity).run es
    let history := (Bypass.empty sidecar capacity).history es
    (∀ k p, b.tables.partner? k = some p → (b.tables.partner? p = some k ↔ ¬Outlives k p history)) ∧
      ∀ own target socket q, own.touches sidecar = false →
        (b.handle (.message own)).reply = .verdict (.redirect target socket) →
          b.tables.partner? target = some q → q ≠ own → Outlives own target history := by
  intro b history
  have hback : ∀ k p, b.tables.partner? k = some p → (b.tables.partner? p = some k ↔ ¬Outlives k p history) := by
    intro k p hk
    have hsince : Since (·.Pairs k p) (·.Parts k) history := (partner?_iff_history sidecar capacity es k p).1 hk
    rw [points_back_iff sidecar capacity h hk, since_unarmed_iff fun m => Moment.Pairs.parts]
    exact and_iff_right hsince
  refine ⟨hback, fun own target socket q hs hreply hq hne => ?_⟩
  have hverdict : (b.tables.onMessage sidecar own).reply = .redirect target socket := by
    have hsidecar : b.sidecar = sidecar := Bypass.sidecar_run _ es
    rw [← hsidecar]
    exact Reply.verdict.inj hreply
  have hown : b.tables.partner? own = some target := Tables.partner?_of_redirect hs hverdict
  by_contra hn
  rw [(hback own target hown).2 hn, Option.some.injEq] at hq
  exact hne hq.symm

end Runs

/-! ## A partner that closes and connects again -/

namespace Reconnect

def dialer : Tuple := ⟨⟨⟨10, 0, 0, 5⟩, 40000⟩, ⟨⟨10, 0, 0, 9⟩, 8080⟩⟩

def first : Tuple := ⟨⟨⟨10, 0, 0, 5⟩, 15001⟩, dialer.own⟩

def second : Tuple := ⟨⟨⟨10, 0, 0, 5⟩, 15006⟩, dialer.own⟩

/-- The dialer is paired with the first acceptor, closes, connects again and is
paired with the second; the first stays open and sends. -/
def events : List (Event Nat) :=
  [.connected ⟨.inet, dialer, 1⟩, .accepted ⟨.inet, first, 2⟩, .message first,
    .stateChanged ⟨.inet, dialer, 1⟩ .close, .connected ⟨.inet, dialer, 3⟩, .accepted ⟨.inet, second, 4⟩]

def bypass : Bypass Nat := (Bypass.empty defaultSidecar 4).run events

theorem orderly : Orderly events := by decide +kernel

theorem reply_first : (bypass.handle (.message first)).reply = .verdict (.redirect dialer 3) :=
  congrArg Reply.verdict (by decide +kernel)

end Reconnect

/-- Symmetry fails when a partner reconnects: the row of the first acceptor still
names the dialer, which is paired with the second one by now, and its data goes
into the dialer's new socket. -/
theorem reconnect_breaks_symmetry :
    Orderly Reconnect.events ∧ Reconnect.bypass.tables.partner? Reconnect.first = some Reconnect.dialer ∧
      Reconnect.bypass.tables.partner? Reconnect.dialer = some Reconnect.second ∧
      Reconnect.second ≠ Reconnect.first ∧ Reconnect.first.touches defaultSidecar = false ∧
      (Reconnect.bypass.handle (.message Reconnect.first)).reply = .verdict (.redirect Reconnect.dialer 3) :=
  ⟨Reconnect.orderly, by decide +kernel, by decide +kernel, by decide, by decide, Reconnect.reply_first⟩

/-- There the first acceptor's row has outlived its partner, and the second's has not. -/
theorem pairs_point_back_on_reconnect :
    let history := (Bypass.empty defaultSidecar 4).history Reconnect.events
    Orderly Reconnect.events ∧ Outlives Reconnect.first Reconnect.dialer history ∧
      ¬Outlives Reconnect.second Reconnect.dialer history := by
  obtain ⟨hback, hredirect⟩ := pairs_point_back_until_close defaultSidecar 4 Reconnect.orderly
  refine ⟨Reconnect.orderly, ?_, ?_⟩
  · exact hredirect Reconnect.first Reconnect.dialer 3 Reconnect.second (by decide) Reconnect.reply_first
      (by decide +kernel) (by decide)
  · exact (hback Reconnect.second Reconnect.dialer (by decide +kernel)).1 (by decide +kernel)

end Splice
