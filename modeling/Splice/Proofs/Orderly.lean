import Splice.Proofs.Redirects
import Splice.Proofs.Staleness
/-!
# Orderly histories

A history is orderly if no socket is established while it is open: its close is
reported before its tuple comes up again. There a pending origin and a proxy row
never stand under the same tuple, so an accept pairs two sockets without rows, a
refused pair takes no row with it, and a row goes only as its own socket closes.
-/

namespace Splice

variable {S : Type} {es : List (Event S)} {e : Event S} {t k : Tuple} {l r : Endpoint} {m : Moment S}

/-- No socket is established while it is open. -/
def Orderly (es : List (Event S)) : Prop :=
  ∀ pre e post, es = pre ++ e :: post → ∀ t, e.Establishes t → ¬Open pre t

theorem orderly_nil : Orderly ([] : List (Event S)) := by
  intro pre e post h
  simp at h

theorem orderly_snoc : Orderly (es ++ [e]) ↔ Orderly es ∧ ∀ t, e.Establishes t → ¬Open es t := by
  constructor
  · intro h
    refine ⟨fun pre f post hes => ?_, h es e [] rfl⟩
    exact h pre f (post ++ [e]) (by simp [hes])
  · rintro ⟨h, he⟩ pre f post hes
    rcases split_snoc hes with ⟨rfl, rfl, -⟩ | ⟨post', -, hes⟩
    · exact he
    · exact h pre f post' hes

theorem Orderly.of_append {fs : List (Event S)} (h : Orderly (es ++ fs)) : Orderly es := by
  intro pre e post hes
  exact h pre e (post ++ fs) (by simp [hes])

/-! ## Telling whether a history is orderly -/

instance : Decidable (Open es t) := inferInstanceAs (Decidable (Since _ _ es))

instance (e : Event S) : Decidable (∀ t, e.Establishes t → ¬Open es t) :=
  match e with
  | .connected s | .accepted s =>
    decidable_of_iff (s.isIpv4 = true → ¬Open es s.tuple) ⟨fun h _ ht => ht.2 ▸ h ht.1, fun h hi => h _ ⟨hi, rfl⟩⟩
  | .stateChanged _ _ | .message _ | .egress _ => isTrue fun _ => False.elim

def Orderly.decideReverse : (es : List (Event S)) → Decidable (Orderly es.reverse)
  | [] => isTrue orderly_nil
  | e :: es =>
    have := decideReverse es
    decidable_of_iff (Orderly es.reverse ∧ ∀ t, e.Establishes t → ¬Open es.reverse t)
      (by rw [List.reverse_cons, orderly_snoc])

instance (es : List (Event S)) : Decidable (Orderly es) :=
  have := Orderly.decideReverse es.reverse
  decidable_of_iff (Orderly es.reverse.reverse) (by rw [List.reverse_reverse])

/-! ## Origins and rows -/

theorem Moment.Claims.own_eq {initiator acceptor : Tuple} (h : m.Claims initiator acceptor) :
    initiator.own = acceptor.peer := by
  unfold Moment.Claims at h
  split at h
  · exact h.2.2.1
  · exact h.elim

theorem Moment.Records.not_pairs {p : Tuple} (h : m.Records t) : ¬m.Pairs k p := by
  have hn (i a : Tuple) : ¬m.Claims i a := fun hc => h.1.not_releases a.peer (.inl ⟨i, a, hc, rfl⟩)
  rintro (⟨hc, -⟩ | ⟨hc, -⟩)
  · exact hn k p hc
  · exact hn p k hc

section Runs
variable (sidecar : Ipv4) (capacity : Nat)

/-- A socket whose origin is pending has no row yet. -/
theorem unpaired_of_pending (h : Orderly es)
    (hp : ((Bypass.empty sidecar capacity).run es).tables.pending.get? l = some r) :
    ((Bypass.empty sidecar capacity).run es).tables.proxy.get? ⟨l, r⟩ = none := by
  induction es using List.reverseRecOn with
  | nil => simp [Bypass.run, Bypass.empty, Tables.empty]
  | append_singleton es e ih =>
    obtain ⟨hes, he⟩ := orderly_snoc.1 h
    rw [Bypass.after_run] at hp ⊢
    refine Option.eq_none_iff_forall_ne_some.2 fun entry hrow => ?_
    rcases Moment.after_pending.1 hp with hr | ⟨hn, hp⟩
    · -- The origin is new, so its socket has just been established and was not open.
      rcases Moment.proxy_of_some hrow with ⟨p, hpair, -⟩ | ⟨-, entry', hrow, -⟩
      · exact hr.not_pairs hpair
      · exact he _ hr.establishes (proxy_open sidecar capacity hrow)
    · rcases Moment.proxy_of_some hrow with ⟨p, ⟨hc, -⟩ | ⟨hc, -⟩, -⟩ | ⟨-, entry', hrow, -⟩
      · -- As an initiator it would have had its origin claimed.
        exact hn (.inl ⟨_, p, hc, hc.own_eq.symm⟩)
      · -- As an acceptor it would have been established while open.
        exact he _ hc.establishes (pending_open sidecar capacity hp)
      · cases (ih hes hp).symm.trans hrow

/-- An accept that claims an origin finds no row of either socket. -/
theorem unpaired_of_claims {initiator acceptor : Tuple} (h : Orderly (es ++ [e]))
    (hc : (⟨(Bypass.empty sidecar capacity).run es, e⟩ : Moment S).Claims initiator acceptor) :
    ((Bypass.empty sidecar capacity).run es).tables.proxy.get? initiator = none ∧
      ((Bypass.empty sidecar capacity).run es).tables.proxy.get? acceptor = none := by
  obtain ⟨hes, he⟩ := orderly_snoc.1 h
  refine ⟨unpaired_of_pending sidecar capacity hes hc.pending, ?_⟩
  refine Option.eq_none_iff_forall_ne_some.2 fun entry hrow => ?_
  exact he _ hc.establishes (proxy_open sidecar capacity hrow)

/-- A row goes only as its socket closes. -/
theorem closes_of_parts {entry : ProxyEntry} (h : Orderly (es ++ [e]))
    (hrow : ((Bypass.empty sidecar capacity).run es).tables.proxy.get? k = some entry)
    (hp : (⟨(Bypass.empty sidecar capacity).run es, e⟩ : Moment S).Parts k) : e.Closes k := by
  rcases hp with hc | ⟨p, ⟨hc, -⟩ | ⟨hc, -⟩⟩ | ⟨a, err, hc, -⟩
  · exact hc
  · rw [(unpaired_of_claims sidecar capacity h hc).1] at hrow
    cases hrow
  · rw [(unpaired_of_claims sidecar capacity h hc).2] at hrow
    cases hrow
  · rw [(unpaired_of_claims sidecar capacity h hc).1] at hrow
    cases hrow

end Runs

end Splice
