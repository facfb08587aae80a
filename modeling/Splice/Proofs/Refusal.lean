import Splice.Proofs.Orderly
/-!
# Refused pairs

An accept whose pair the proxy table refuses has claimed its peer's origin
already. Giving up removes the row of the connecting socket, which would cost a
row that was there before. In an orderly history there is none: a socket whose
origin is pending has no row. So the refusal leaves the proxy table as it was, and
the two sockets stay on the proxy path until they are paired after all.
-/

namespace Splice

variable {S : Type}

namespace Moment

variable {m : Moment S} {k initiator acceptor : Tuple} {error : TableError}

/-- Where the connecting socket had no row, a refused pair leaves no trace in the proxy table. -/
theorem proxy_of_refused (hc : m.Claims initiator acceptor)
    (he : (m.tables.proxy.insertPair initiator acceptor).2 = .error error)
    (hn : m.tables.proxy.get? initiator = none) : m.after.proxy = m.tables.proxy := by
  obtain ⟨_, -, ha⟩ := after_of_claims hc
  rw [ha]
  exact Table.insertPair_of_error he hn

/-- A socket without a row gets one only by being paired. -/
theorem unpaired_after (hn : m.tables.proxy.get? k = none) (hp : ∀ p, ¬m.Pairs k p) : m.after.proxy.get? k = none := by
  refine Option.eq_none_iff_forall_ne_some.2 fun entry h => ?_
  rcases proxy_of_some h with ⟨p, hpair, -⟩ | ⟨-, old, hold, -⟩
  · exact hp p hpair
  · rw [hn] at hold
    cases hold

end Moment

theorem Bypass.unpaired_run {b : Bypass S} {es : List (Event S)} {k : Tuple} (hn : b.tables.proxy.get? k = none)
    (hp : ∀ m ∈ b.history es, ∀ p, ¬m.Pairs k p) : (b.run es).tables.proxy.get? k = none := by
  apply run_keeps (P := fun T => T.proxy.get? k = none) b es hn
  intro m hm h
  exact Moment.unpaired_after h (hp m hm)

theorem Tables.pass_of_unpaired {T : Tables S} {sidecar : Ipv4} {own : Tuple} (hs : own.touches sidecar = false)
    (hn : T.proxy.get? own = none) : (T.onMessage sidecar own).reply = .pass := by
  rw [reply_onMessage, if_neg (by simp [hs]), hn]

section Runs
variable (sidecar : Ipv4) (capacity : Nat) {pre es : List (Event S)} {s : Socket S}

/-- An answer that names the proxy table is one of an accept that claimed an
origin and was refused the pair. -/
theorem claims_of_degraded {c : Nat}
    (h : (((Bypass.empty sidecar capacity).run pre).handle (.accepted s)).reply =
      .tracked (.degraded (.full .proxy c))) :
    ∃ origin,
      (⟨(Bypass.empty sidecar capacity).run pre, .accepted s⟩ : Moment S).Claims
          (Tables.initiatorOf s.tuple origin) s.tuple ∧
        (((Bypass.empty sidecar capacity).run pre).tables.proxy.insertPair
          (Tables.initiatorOf s.tuple origin) s.tuple).2 = .error (.full .proxy c) := by
  have hname := (Bypass.named_run sidecar capacity pre).redirect
  obtain ⟨hi, origin, ho, he⟩ := Tables.refused_of_reply_accepted _ _ s (Reply.tracked.inj h) (by simp [hname])
  exact ⟨origin, ⟨hi, rfl, rfl, ho⟩, he⟩

/-- In an orderly history no socket has both a pending origin and a row. So when
an accept reports that the proxy table is full, that table is as it was, neither
socket of the refused pair has a row, and the data of either passes until a later
accept pairs it. -/
theorem refused_pair_costs_only_bypass (h : Orderly es) :
    let b : Bypass S := (Bypass.empty sidecar capacity).run es
    (∀ l r, b.tables.pending.get? l = some r → b.tables.proxy.get? ⟨l, r⟩ = none) ∧
      ∀ pre s post c, es = pre ++ .accepted s :: post →
        let before : Bypass S := (Bypass.empty sidecar capacity).run pre
        let after := before.step (.accepted s)
        (before.handle (.accepted s)).reply = .tracked (.degraded (.full .proxy c)) →
          after.tables.proxy = before.tables.proxy ∧
            ∃ origin, before.tables.pending.get? s.tuple.peer = some origin ∧
              ∀ k ∈ [Tables.initiatorOf s.tuple origin, s.tuple],
                after.tables.proxy.get? k = none ∧
                  (k.touches sidecar = false → (∀ m ∈ after.history post, ∀ p, ¬m.Pairs k p) →
                    ((after.run post).handle (.message k)).reply = .verdict .pass) := by
  intro b
  refine ⟨fun l r hp => unpaired_of_pending sidecar capacity h hp, ?_⟩
  intro pre s post c hes before after hreply
  subst hes
  obtain ⟨origin, hclaims, hrefused⟩ := claims_of_degraded sidecar capacity hreply
  -- The accept ends an orderly history of its own, so neither socket had a row before it.
  have hpre : Orderly (pre ++ [.accepted s]) := by
    rw [List.append_cons] at h
    exact h.of_append
  obtain ⟨hinitiator, hacceptor⟩ := unpaired_of_claims sidecar capacity hpre hclaims
  have hsame : after.tables.proxy = before.tables.proxy := Moment.proxy_of_refused hclaims hrefused hinitiator
  refine ⟨hsame, origin, hclaims.2.2.2, fun k hk => ?_⟩
  have hrow : after.tables.proxy.get? k = none := by
    rw [hsame]
    rcases List.mem_pair.1 hk with rfl | rfl
    · exact hinitiator
    · exact hacceptor
  refine ⟨hrow, fun hs hunpaired => ?_⟩
  have hsidecar : (after.run post).sidecar = sidecar := by simp [after, before]
  apply congrArg Reply.verdict
  rw [hsidecar]
  exact Tables.pass_of_unpaired hs (Bypass.unpaired_run hrow hunpaired)

end Runs

/-! ## A table with one place left -/

namespace LastPlace

def first : Tuple := ⟨⟨⟨10, 0, 0, 5⟩, 40000⟩, ⟨⟨10, 0, 0, 9⟩, 8080⟩⟩

def second : Tuple := ⟨⟨⟨10, 0, 0, 5⟩, 40001⟩, ⟨⟨10, 0, 0, 9⟩, 8080⟩⟩

/-- The proxy's socket that accepts from the own endpoint of `t`. -/
def acceptor (t : Tuple) : Tuple := ⟨⟨⟨10, 0, 0, 5⟩, 15001⟩, t.own⟩

/-- One flow is paired, and the socket of another has connected. -/
def events : List (Event Nat) :=
  [.connected ⟨.inet, first, 1⟩, .accepted ⟨.inet, acceptor first, 2⟩, .connected ⟨.inet, second, 3⟩]

def late : Socket Nat := ⟨.inet, acceptor second, 4⟩

theorem orderly : Orderly (events ++ [.accepted late]) := by decide +kernel

end LastPlace

/-- The first row of the second pair takes the last place, and is given up when
the second row finds none. -/
theorem refused_pair_at_last_place :
    let before := (Bypass.empty defaultSidecar 3).run LastPlace.events
    let after := before.step (.accepted LastPlace.late)
    Orderly (LastPlace.events ++ [.accepted LastPlace.late]) ∧
      (before.handle (.accepted LastPlace.late)).reply = .tracked (.degraded (.full .proxy 3)) ∧
      before.tables.proxy.size = 2 ∧ after.tables.proxy = before.tables.proxy ∧
      (after.handle (.message LastPlace.second)).reply = .verdict .pass := by
  intro before after
  have hreply : (before.handle (.accepted LastPlace.late)).reply = .tracked (.degraded (.full .proxy 3)) :=
    congrArg Reply.tracked (by decide +kernel)
  have hrefused := (refused_pair_costs_only_bypass defaultSidecar 3 LastPlace.orderly).2
  obtain ⟨hsame, origin, horigin, hpass⟩ := hrefused LastPlace.events LastPlace.late [] 3 rfl hreply
  have hpending : before.tables.pending.get? LastPlace.second.own = some LastPlace.second.peer := by decide +kernel
  obtain rfl : LastPlace.second.peer = origin := Option.some.inj (hpending.symm.trans horigin)
  refine ⟨LastPlace.orderly, hreply, by decide +kernel, hsame, ?_⟩
  exact (hpass LastPlace.second (by simp [Tables.initiatorOf, LastPlace.late, LastPlace.acceptor])).2 (by decide)
    (by simp [Bypass.history])

end Splice
