import Splice.Proofs.Flows
/-!
# Flows never intermix

Events of many flows reach the bypass in any order. What one flow can see of
the tables is its pending origin and the rows whose key it marks: its own events
read and write nothing else, and events of other flows write none of it. So each
flow gets the answers it would get if it were alone.
-/

namespace Splice

variable {S : Type}

/-- No insert that the moment's handler tries is refused. -/
def Moment.Accepts (m : Moment S) : Prop :=
  (∀ t socket, m.Offers t socket → m.Registers t socket) ∧
    (∀ t, m.Remembers t → ∃ T recorded, m.tables.recordOrigin t.own t.peer = .ok (T, recorded)) ∧
    ∀ initiator acceptor, m.Claims initiator acceptor →
      (m.tables.proxy.insertPair initiator acceptor).2 = .ok ()

namespace Flow

/-- The flow cannot tell the tables apart. -/
structure Alike (f : Flow) (T U : Tables S) : Prop where
  pending : T.pending.get? f.start = U.pending.get? f.start
  proxy : ∀ k, f.Marks k → T.proxy.get? k = U.proxy.get? k
  redirect : ∀ k, f.Marks k → T.redirect.get? k = U.redirect.get? k

theorem Alike.refl (f : Flow) (T : Tables S) : f.Alike T T := ⟨rfl, fun _ _ => rfl, fun _ _ => rfl⟩

theorem Alike.symm {f : Flow} {T U : Tables S} (h : f.Alike T U) : f.Alike U T :=
  ⟨h.pending.symm, fun k hk => (h.proxy k hk).symm, fun k hk => (h.redirect k hk).symm⟩

theorem Alike.trans {f : Flow} {T U V : Tables S} (h : f.Alike T U) (h' : f.Alike U V) : f.Alike T V :=
  ⟨h.pending.trans h'.pending, fun k hk => (h.proxy k hk).trans (h'.proxy k hk),
    fun k hk => (h.redirect k hk).trans (h'.redirect k hk)⟩

end Flow

section Flows
variable {n : Nat} {flows : Fin n → Flow} {capacity : Nat} (apart : Apart flows) {i j : Fin n}

theorem Holds.accepts {m : Moment S} (h : Holds flows capacity m.tables) (apart : Apart flows)
    (hcap : 2 * n ≤ capacity) (ho : (flows i).Owns m.event) : m.Accepts := by
  refine ⟨?_, ?_, ?_⟩
  · intro t socket hoff
    exact Moment.registers_iff.2 ⟨hoff, h.room_redirect hcap (ho.offers hoff)⟩
  · intro t hr
    obtain rfl := ho.remembers hr
    have hroom : m.tables.pending.HasRoom (flows i).initiator.own := h.room_pending hcap i
    rw [Tables.recordOrigin_eq, if_pos hroom]
    split <;> exact ⟨_, _, rfl⟩
  · intro a b hc
    obtain ⟨rfl, rfl⟩ := h.claims_eq apart rfl ho hc
    exact h.pair_ok hcap i

/-! ## Events of other flows -/

theorem alike_of_foreign {m : Moment S} (h : Holds flows capacity m.tables) (apart : Apart flows) (hn : i ≠ j)
    (ho : (flows j).Owns m.event) : (flows i).Alike m.after m.tables := by
  have hclaims {a b k : Tuple} (hc : m.Claims a b) (hk : (flows i).Marks k) : k ≠ a ∧ k ≠ b := by
    obtain ⟨rfl, rfl⟩ := h.claims_eq apart rfl ho hc
    exact ⟨fun he => apart.not_marks hn (.inl he) hk, fun he => apart.not_marks hn (.inr he) hk⟩
  refine ⟨Option.ext fun r => ?_, fun k hk => ?_, fun k hk => Option.ext fun socket => ?_⟩
  · have hrecords : ¬m.Records ⟨(flows i).start, r⟩ := fun hr =>
      apart.not_marks hn (.inl (ho.remembers hr.1)) (.inl rfl)
    have hreleases : ¬m.Releases (flows i).start := by
      rintro (⟨a, b, hc, hb⟩ | ⟨t, hc, ht⟩)
      · exact (hclaims hc (k := b) (.inr hb)).2 rfl
      · exact apart.not_marks hn (ho.closes hc) (.inl ht)
    simp only [Moment.after_pending, hrecords, hreleases, not_false_eq_true, true_and, false_or]
  · have hpairs (p : Tuple) : ¬m.Pairs k p := by
      rintro (⟨hc, -⟩ | ⟨hc, -⟩)
      · exact (hclaims hc hk).1 rfl
      · exact (hclaims hc hk).2 rfl
    have hrefuses : ¬m.Refuses k := by
      rintro ⟨_, _, hc, _⟩
      exact (hclaims hc hk).1 rfl
    have hcloses : ¬m.event.Closes k := fun hc => apart.not_marks hn (ho.closes hc) hk
    rw [Moment.proxy_of_kept hpairs hrefuses hcloses, Moment.moves_of_still, Option.map_id_fun, id]
    · exact fun hs => (apart.not_marks hn (ho.sends hs) hk).elim
    · exact fun hf => apart.not_marks hn (ho.frames hf) hk
  · have hregisters (other : S) : ¬m.Registers k other := fun hr => apart.not_marks hn (ho.offers hr.1) hk
    have hcloses : ¬m.event.Closes k := fun hc => apart.not_marks hn (ho.closes hc) hk
    simp only [Moment.after_redirect, hregisters, hcloses, not_false_eq_true, implies_true, true_and, false_or]

/-! ## Events of the flow itself -/

section Own
variable {b b' : Bypass S} {e : Event S} {f : Flow} {t k p initiator acceptor : Tuple} {socket : S}
variable (hs : b.sidecar = b'.sidecar) (ho : f.Owns e) (ha : f.Alike b.tables b'.tables)
include hs ho ha

theorem offers_of_alike (h : (⟨b, e⟩ : Moment S).Offers t socket) : (⟨b', e⟩ : Moment S).Offers t socket := by
  cases e with
  | connected s => simpa only [Moment.Offers, hs] using h
  | accepted s =>
    have ht : s.tuple = f.acceptor := ho
    have hp : b.tables.pending.get? f.acceptor.peer = b'.tables.pending.get? f.acceptor.peer := ha.pending
    obtain ⟨hi, rfl, hh, h⟩ := h
    refine ⟨hi, rfl, hh, ?_⟩
    rw [ht] at h ⊢
    simpa only [Moment.tables, hs, hp] using h
  | _ => exact h

omit hs in
theorem claims_of_alike (h : (⟨b, e⟩ : Moment S).Claims initiator acceptor) :
    (⟨b', e⟩ : Moment S).Claims initiator acceptor := by
  cases e with
  | accepted s =>
    have ht : s.tuple = f.acceptor := ho
    have hp : b.tables.pending.get? f.acceptor.peer = b'.tables.pending.get? f.acceptor.peer := ha.pending
    obtain ⟨hi, rfl, hown, h⟩ := h
    refine ⟨hi, rfl, hown, ?_⟩
    rw [ht] at h ⊢
    exact hp.symm.trans h
  | _ => exact h

omit hs in
theorem claims_iff_of_alike :
    (⟨b, e⟩ : Moment S).Claims initiator acceptor ↔ (⟨b', e⟩ : Moment S).Claims initiator acceptor :=
  ⟨claims_of_alike ho ha, claims_of_alike ho ha.symm⟩

omit ho ha in
theorem remembers_of_sidecar (h : (⟨b, e⟩ : Moment S).Remembers t) : (⟨b', e⟩ : Moment S).Remembers t := by
  cases e with
  | connected s => simpa only [Moment.Remembers, hs] using h
  | _ => exact h

end Own

theorem Moment.Accepts.registers_iff {m : Moment S} (h : m.Accepts) {t : Tuple} {socket : S} :
    m.Registers t socket ↔ m.Offers t socket := ⟨And.left, h.1 t socket⟩

theorem Moment.Accepts.records_iff {m : Moment S} (h : m.Accepts) {t : Tuple} :
    m.Records t ↔ m.Remembers t ∧ m.tables.pending.get? t.own = none := by
  rw [Moment.records_iff]
  refine ⟨fun ⟨hr, hn, _⟩ => ⟨hr, hn⟩, fun ⟨hr, hn⟩ => ⟨hr, hn, ?_⟩⟩
  obtain ⟨T, recorded, hok⟩ := h.2.1 t hr
  rw [Tables.recordOrigin_eq, hn] at hok
  by_contra hroom
  simp [hroom] at hok

theorem Moment.Accepts.pairs_iff {m : Moment S} (h : m.Accepts) {k p : Tuple} :
    m.Pairs k p ↔ m.Claims k p ∨ m.Claims p k := by
  refine or_congr ⟨And.left, fun hc => ⟨hc, h.2.2 _ _ hc⟩⟩ ⟨And.left, fun hc => ⟨hc, h.2.2 _ _ hc⟩⟩

theorem Moment.Accepts.not_refuses {m : Moment S} (h : m.Accepts) (k : Tuple) : ¬m.Refuses k := by
  rintro ⟨a, e, hc, he⟩
  rw [h.2.2 k a hc] at he
  cases he

section Own
variable {b b' : Bypass S} {e : Event S} {f : Flow} {k p : Tuple}
variable (hacc : (⟨b, e⟩ : Moment S).Accepts) (hacc' : (⟨b', e⟩ : Moment S).Accepts)
variable (hs : b.sidecar = b'.sidecar) (ho : f.Owns e) (ha : f.Alike b.tables b'.tables)
include hacc hacc' ho ha

theorem pairs_iff_of_alike : (⟨b, e⟩ : Moment S).Pairs k p ↔ (⟨b', e⟩ : Moment S).Pairs k p := by
  rw [hacc.pairs_iff, hacc'.pairs_iff, claims_iff_of_alike ho ha, claims_iff_of_alike ho ha]

include hs

theorem pending_of_alike :
    (⟨b, e⟩ : Moment S).after.pending.get? f.start = (⟨b', e⟩ : Moment S).after.pending.get? f.start := by
  apply Option.ext
  intro r
  have hreleases : (⟨b, e⟩ : Moment S).Releases f.start ↔ (⟨b', e⟩ : Moment S).Releases f.start := by
    simp only [Moment.Releases, claims_iff_of_alike ho ha]
  have hremembers {t : Tuple} : (⟨b, e⟩ : Moment S).Remembers t ↔ (⟨b', e⟩ : Moment S).Remembers t :=
    ⟨remembers_of_sidecar hs, remembers_of_sidecar hs.symm⟩
  have hp : (⟨b, e⟩ : Moment S).tables.pending.get? f.start = (⟨b', e⟩ : Moment S).tables.pending.get? f.start :=
    ha.pending
  rw [Moment.after_pending, Moment.after_pending, hacc.records_iff, hacc'.records_iff, hremembers, hreleases, hp]

theorem proxy_of_alike (hk : f.Marks k) :
    (⟨b, e⟩ : Moment S).after.proxy.get? k = (⟨b', e⟩ : Moment S).after.proxy.get? k := by
  have hpairs (p : Tuple) := pairs_iff_of_alike (k := k) (p := p) hacc hacc' ho ha
  have hmoves : (⟨b, e⟩ : Moment S).moves k = (⟨b', e⟩ : Moment S).moves k := by
    simp only [Moment.moves, hs]
  by_cases hp : ∃ p, (⟨b, e⟩ : Moment S).Pairs k p
  · obtain ⟨p, hp⟩ := hp
    rw [Moment.proxy_of_pairs hp, Moment.proxy_of_pairs ((hpairs p).1 hp)]
  by_cases hc : e.Closes k
  · rw [Moment.proxy_of_closes (m := ⟨b, e⟩) hc, Moment.proxy_of_closes (m := ⟨b', e⟩) hc]
  rw [Moment.proxy_of_kept (fun p h => hp ⟨p, h⟩) (hacc.not_refuses k) hc,
    Moment.proxy_of_kept (fun p h => hp ⟨p, (hpairs p).2 h⟩) (hacc'.not_refuses k) hc, hmoves]
  exact congrArg _ (ha.proxy k hk)

theorem redirect_of_alike (hk : f.Marks k) :
    (⟨b, e⟩ : Moment S).after.redirect.get? k = (⟨b', e⟩ : Moment S).after.redirect.get? k := by
  apply Option.ext
  intro socket
  have hoffers {t : Tuple} {socket : S} : (⟨b, e⟩ : Moment S).Offers t socket ↔ (⟨b', e⟩ : Moment S).Offers t socket :=
    ⟨offers_of_alike hs ho ha, offers_of_alike hs.symm ho ha.symm⟩
  have hr : (⟨b, e⟩ : Moment S).tables.redirect.get? k = (⟨b', e⟩ : Moment S).tables.redirect.get? k :=
    ha.redirect k hk
  simp only [Moment.after_redirect, hacc.registers_iff, hacc'.registers_iff, hoffers, hr]

/-- An event of a flow does the same to tables that are alike to the flow. -/
theorem alike_after : f.Alike (⟨b, e⟩ : Moment S).after (⟨b', e⟩ : Moment S).after where
  pending := pending_of_alike hacc hacc' hs ho ha
  proxy _ hk := proxy_of_alike hacc hacc' hs ho ha hk
  redirect _ hk := redirect_of_alike hacc hacc' hs ho ha hk

end Own

/-! ## Answers -/

theorem Holds.pair_of_pending {T : Tables S} (h : Holds flows capacity T) (apart : Apart flows)
    (hcap : 2 * n ≤ capacity) {origin : Endpoint}
    (hp : T.pending.get? (flows i).acceptor.peer = some origin) :
    (T.proxy.insertPair (Tables.initiatorOf (flows i).acceptor origin) (flows i).acceptor).2 = .ok () := by
  obtain rfl := h.origin_of_pending apart hp
  exact h.pair_ok hcap i

theorem reply_forward_of_alike {T U : Tables S} {f : Flow} (ha : f.Alike T U) (own : Tuple) {target : Tuple}
    (ht : f.Marks target) : (T.forward own target).reply = (U.forward own target).reply := by
  rw [Tables.reply_forward, Tables.reply_forward, ha.redirect target ht]

/-- No answer to a flow's event reports a refused insert. -/
theorem Holds.not_degraded {b : Bypass S} {e : Event S} (h : Holds flows capacity b.tables) (apart : Apart flows)
    (hcap : 2 * n ≤ capacity) (ho : (flows i).Owns e) (err : TableError) :
    (b.handle e).reply ≠ .tracked (.degraded err) := by
  cases e with
  | connected s =>
    have ht : s.tuple = (flows i).initiator := ho
    have hp : s.tuple.own = (flows i).start := by rw [ht]; rfl
    simp only [Bypass.handle, ne_eq, Reply.tracked.injEq]
    rw [Tables.reply_connected_of_room _ _ _ (hp ▸ h.room_pending hcap i) (h.room_redirect hcap (.inl ht))]
    split <;> rintro ⟨⟩
  | accepted s =>
    have ht : s.tuple = (flows i).acceptor := ho
    simp only [Bypass.handle, ne_eq, Reply.tracked.injEq]
    rw [Tables.reply_accepted_of_room _ _ _ (h.room_redirect hcap (.inr ht))]
    · split
      · rintro ⟨⟩
      split
      · split <;> rintro ⟨⟩
      · rintro ⟨⟩
    · rw [ht]
      exact fun origin => h.pair_of_pending apart hcap
  | stateChanged s state =>
    simp only [Bypass.handle, ne_eq, Reply.tracked.injEq, Tables.reply_stateChanged]
    split <;> rintro ⟨⟩
  | message own => rintro ⟨⟩
  | egress frame => rintro ⟨⟩

theorem reply_of_alike {b b' : Bypass S} {e : Event S} (h : Holds flows capacity b.tables)
    (h' : Holds flows capacity b'.tables) (apart : Apart flows) (hcap : 2 * n ≤ capacity)
    (hs : b.sidecar = b'.sidecar) (ho : (flows i).Owns e) (ha : (flows i).Alike b.tables b'.tables) :
    (b.handle e).reply = (b'.handle e).reply := by
  cases e with
  | connected s =>
    have ht : s.tuple = (flows i).initiator := ho
    have hp : s.tuple.own = (flows i).start := by rw [ht]; rfl
    simp only [Bypass.handle, Reply.tracked.injEq]
    rw [Tables.reply_connected_of_room, Tables.reply_connected_of_room, hs]
    · exact hp ▸ h'.room_pending hcap i
    · exact h'.room_redirect hcap (.inl ht)
    · exact hp ▸ h.room_pending hcap i
    · exact h.room_redirect hcap (.inl ht)
  | accepted s =>
    have ht : s.tuple = (flows i).acceptor := ho
    have hp : b.tables.pending.get? (flows i).acceptor.peer = b'.tables.pending.get? (flows i).acceptor.peer :=
      ha.pending
    simp only [Bypass.handle, Reply.tracked.injEq]
    rw [Tables.reply_accepted_of_room _ _ _ (h.room_redirect hcap (.inr ht)),
      Tables.reply_accepted_of_room _ _ _ (h'.room_redirect hcap (.inr ht)), ht, hp, hs]
    · rw [ht]
      exact fun origin => h'.pair_of_pending apart hcap
    · rw [ht]
      exact fun origin => h.pair_of_pending apart hcap
  | stateChanged s state => simp only [Bypass.handle, Tables.reply_stateChanged]
  | message own =>
    have hmarks : (flows i).Marks own := Flow.Has.marks ho
    simp only [Bypass.handle, Reply.verdict.injEq, Tables.reply_onMessage, hs]
    by_cases ht : own.touches b'.sidecar
    · rw [if_pos ht, if_pos ht]
      exact reply_forward_of_alike ha own hmarks.symm
    rw [if_neg ht, if_neg ht, ← ha.proxy own hmarks]
    split
    · rename_i partner hrow
      have hpartner : (flows i).Has partner := by
        obtain ⟨hi, hj⟩ := h.partner apart hrow
        exact ho.elim (fun ho => .inr (hi ho)) fun ho => .inl (hj ho)
      exact reply_forward_of_alike ha own hpartner.marks
    · rfl
  | egress frame =>
    obtain ⟨t, ht, hhas⟩ := ho
    simp only [Bypass.handle, Tables.reply_onEgress, ht, ha.proxy t hhas.marks]

/-! ## Runs -/

/-- The events of one flow in a list of events of all. -/
def sequence (i : Fin n) (es : List (Fin n × Event S)) : List (Event S) := (es.filter (·.1 = i)).map (·.2)

theorem sequence_snoc (i : Fin n) (es : List (Fin n × Event S)) (x : Fin n × Event S) :
    sequence i (es ++ [x]) = if x.1 = i then sequence i es ++ [x.2] else sequence i es := by
  unfold sequence
  rw [List.filter_append, List.map_append]
  by_cases hx : x.1 = i <;> simp [hx]

section Runs
variable (sidecar : Ipv4) (capacity : Nat) {es : List (Fin n × Event S)}
include apart

theorem holds_run (hes : ∀ x ∈ es, (flows x.1).Owns x.2) :
    Holds flows capacity ((Bypass.empty sidecar capacity).run (es.map (·.2))).tables := by
  induction es using List.reverseRecOn with
  | nil => exact Holds.empty capacity
  | append_singleton es x ih =>
    obtain ⟨hes, hx⟩ := List.forall_mem_append.1 hes
    rw [List.map_append, List.map_singleton, Bypass.after_run]
    exact (ih hes).after apart rfl (hx x (by simp))

theorem holds_sequence (i : Fin n) (hes : ∀ x ∈ es, (flows x.1).Owns x.2) :
    Holds flows capacity ((Bypass.empty sidecar capacity).run (sequence i es)).tables :=
  holds_run apart sidecar capacity fun x hx => hes x (List.mem_filter.1 hx).1

theorem alike_run (hcap : 2 * n ≤ capacity) (hes : ∀ x ∈ es, (flows x.1).Owns x.2) (i : Fin n) :
    (flows i).Alike ((Bypass.empty sidecar capacity).run (es.map (·.2))).tables
      ((Bypass.empty sidecar capacity).run (sequence i es)).tables := by
  induction es using List.reverseRecOn with
  | nil => exact Flow.Alike.refl _ _
  | append_singleton es x ih =>
    obtain ⟨j, e⟩ := x
    obtain ⟨hpre, hx⟩ := List.forall_mem_append.1 hes
    have ho : (flows j).Owns e := hx (j, e) (by simp)
    have hall := holds_run apart sidecar capacity hpre
    rw [List.map_append, List.map_singleton, Bypass.after_run, sequence_snoc]
    -- An event of the flow moves both runs on, any other only the run of all.
    by_cases hj : j = i
    · subst hj
      have hsolo := holds_sequence apart sidecar capacity j hpre
      rw [if_pos rfl, Bypass.after_run]
      refine alike_after ?_ ?_ (by simp) ho (ih hpre)
      · exact Holds.accepts (m := ⟨_, e⟩) hall apart hcap ho
      · exact Holds.accepts (m := ⟨_, e⟩) hsolo apart hcap ho
    · rw [if_neg hj]
      exact (alike_of_foreign (m := ⟨_, e⟩) hall apart (Ne.symm hj) ho).trans (ih hpre)

end Runs

end Flows

/-- Events of any number of flows, in any order, on tables with two places a
flow: nothing is refused, each event is answered as if its flow were alone, and
each flow's rows end as if it were, its proxy rows pointing at each other. -/
theorem flows_never_intermix {n : Nat} (flows : Fin n → Flow) (apart : Apart flows) (sidecar : Ipv4)
    (capacity : Nat) (hcap : 2 * n ≤ capacity) (es : List (Fin n × Event S))
    (hes : ∀ x ∈ es, (flows x.1).Owns x.2) :
    (∀ pre i e post, es = pre ++ (i, e) :: post →
      let b := (Bypass.empty sidecar capacity).run (pre.map (·.2))
      let alone := (Bypass.empty sidecar capacity).run (sequence i pre)
      (⟨b, e⟩ : Moment S).Accepts ∧ (∀ err, (b.handle e).reply ≠ .tracked (.degraded err)) ∧
        (b.handle e).reply = (alone.handle e).reply) ∧
    ∀ i,
      let T := ((Bypass.empty sidecar capacity).run (es.map (·.2))).tables
      let alone := ((Bypass.empty sidecar capacity).run (sequence i es)).tables
      (∀ k, (flows i).Has k → T.proxy.get? k = alone.proxy.get? k ∧ T.redirect.get? k = alone.redirect.get? k) ∧
        T.pending.get? (flows i).start = alone.pending.get? (flows i).start ∧
        (∀ entry, T.proxy.get? (flows i).initiator = some entry → entry.redirect = (flows i).acceptor) ∧
        (∀ entry, T.proxy.get? (flows i).acceptor = some entry → entry.redirect = (flows i).initiator) := by
  constructor
  · intro pre i e post he
    subst he
    obtain ⟨hpre, hrest⟩ := List.forall_mem_append.1 hes
    have ho : (flows i).Owns e := hrest (i, e) (by simp)
    have hall := holds_run apart sidecar capacity hpre
    have hsolo := holds_sequence apart sidecar capacity i hpre
    refine ⟨Holds.accepts (m := ⟨_, e⟩) hall apart hcap ho, fun err => hall.not_degraded apart hcap ho err, ?_⟩
    exact reply_of_alike hall hsolo apart hcap (by simp) ho (alike_run apart sidecar capacity hcap hpre i)
  · intro i
    have hall := holds_run apart sidecar capacity hes
    have ha := alike_run apart sidecar capacity hcap hes i
    refine ⟨?_, ha.pending, ?_, ?_⟩
    · intro k hk
      exact ⟨ha.proxy k hk.marks, ha.redirect k hk.marks⟩
    · intro entry h
      exact (hall.partner apart h).1 rfl
    · intro entry h
      exact (hall.partner apart h).2 rfl

/-- Two flows to one destination, served by one listener, that pair in the
opposite order: each has both its rows, and they point at each other. -/
theorem flows_never_intermix_on_one_listener :
    let flows : Fin 2 → Flow := fun i =>
      ⟨⟨⟨10, 0, 0, 1⟩, if i = 0 then 40000 else 40001⟩, ⟨⟨10, 0, 0, 9⟩, 80⟩, ⟨⟨10, 0, 0, 2⟩, 8080⟩⟩
    let es : List (Fin 2 × Event Nat) :=
      [(0, .connected ⟨.inet, (flows 0).initiator, 1⟩), (1, .connected ⟨.inet, (flows 1).initiator, 2⟩),
        (1, .accepted ⟨.inet, (flows 1).acceptor, 3⟩), (0, .accepted ⟨.inet, (flows 0).acceptor, 4⟩)]
    let T := ((Bypass.empty defaultSidecar 4).run (es.map (·.2))).tables
    Apart flows ∧ 2 * 2 ≤ 4 ∧ (∀ x ∈ es, (flows x.1).Owns x.2) ∧
      ∀ i, (∃ entry, T.proxy.get? (flows i).initiator = some entry ∧ entry.redirect = (flows i).acceptor) ∧
        ∃ entry, T.proxy.get? (flows i).acceptor = some entry ∧ entry.redirect = (flows i).initiator := by
  intro flows es T
  have apart : Apart flows := by unfold Apart; decide
  have hes : ∀ x ∈ es, (flows x.1).Owns x.2 := by
    simp only [es, List.forall_mem_cons]
    exact ⟨rfl, rfl, rfl, rfl, nofun⟩
  have hrows : ∀ i, (T.proxy.get? (flows i).initiator).isSome ∧ (T.proxy.get? (flows i).acceptor).isSome := by
    decide +kernel
  refine ⟨apart, by decide, hes, fun i => ?_⟩
  obtain ⟨-, -, hinitiator, hacceptor⟩ := (flows_never_intermix flows apart defaultSidecar 4 (by decide) es hes).2 i
  obtain ⟨outward, houtward⟩ := Option.isSome_iff_exists.1 (hrows i).1
  obtain ⟨inward, hinward⟩ := Option.isSome_iff_exists.1 (hrows i).2
  exact ⟨⟨outward, houtward, hinitiator outward houtward⟩, inward, hinward, hacceptor inward hinward⟩

end Splice
