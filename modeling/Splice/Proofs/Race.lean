import Mathlib.Data.List.Infix
import Splice.Proofs.Operations
/-!
# A close that races an accept

The socket of `a` has connected and its origin is pending; `p` is accepted from its
endpoint while `a` closes. The accept claims the origin by its first operation and
writes the row of `a` by its second. The close removes the row of `a` by its first
and the origin by its second. If each has done its first operation and not its
second, the accept goes on to write a row for a socket that has looked for its rows
already. No later close removes that row. In every other order nothing is left.
-/

namespace Splice

variable {S : Type}

/-- No table has a row of the socket. -/
def Tables.NoRows (T : Tables S) (t : Tuple) : Prop :=
  T.proxy.get? t = none ∧ T.pending.get? t.own = none ∧ T.redirect.get? t = none

instance (T : Tables S) (t : Tuple) [DecidableEq S] : Decidable (T.NoRows t) := inferInstanceAs (Decidable (_ ∧ _))

/-- The socket of `a` has connected and its origin is pending. The tables know
nothing else of it but its handle, and nothing of `p`, which is accepted from its
endpoint. -/
structure Awaits (sidecar : Ipv4) (T : Tables S) (a p : Socket S) : Prop where
  meets : p.tuple.peer = a.tuple.own
  isIpv4 : a.isIpv4 = true
  outside : a.tuple.own.addr ≠ sidecar
  abroad : a.tuple.own.addr ≠ a.tuple.peer.addr
  origin : T.pending.get? a.tuple.own = some a.tuple.peer
  unpaired : T.proxy.get? a.tuple = none ∧ T.proxy.get? p.tuple = none
  unregistered : T.redirect.get? p.tuple = none
  elsewhere : p.tuple.own ≠ a.tuple.own → T.pending.get? p.tuple.own = none

namespace Awaits

variable {sidecar : Ipv4} {T : Tables S} {a p : Socket S}

theorem of_connected (hpeer : p.tuple.peer = a.tuple.own) (ha : T.NoRows a.tuple) (hp : T.NoRows p.tuple)
    (ho : (T.connected sidecar a).tables.pending.get? a.tuple.own = some a.tuple.peer) :
    Awaits sidecar (T.connected sidecar a).tables a p := by
  obtain ⟨hrow, horigin, hhandle⟩ := ha
  obtain ⟨hrow', horigin', hhandle'⟩ := hp
  have hnew : ¬T.pending.get? a.tuple.own = some a.tuple.peer := by
    rw [horigin]
    exact nofun
  rw [Tables.tables_connected] at ho ⊢
  split at ho
  · exact absurd ho hnew
  rename_i hi
  split at ho
  · exact absurd ho hnew
  rename_i houtside
  split at ho
  · exact absurd ho hnew
  rename_i habroad
  have hne : a.tuple ≠ p.tuple := by
    intro he
    rw [← he] at hpeer
    exact habroad (congrArg Endpoint.addr hpeer.symm)
  rw [if_neg hi, if_neg houtside, if_neg habroad]
  refine ⟨hpeer, by simpa using hi, houtside, habroad, ho, ⟨hrow, hrow'⟩, ?_, fun he => ?_⟩
  · rw [Table.get?_tryPut, if_neg fun h => hne h.2]
    exact hhandle'
  · rw [Table.get?_tryAdd, if_neg fun h => he h.2.2.symm]
    exact horigin'

theorem ne (h : Awaits sidecar T a p) : a.tuple ≠ p.tuple := by
  intro he
  have hm := h.meets
  rw [← he] at hm
  exact h.abroad (congrArg Endpoint.addr hm.symm)

theorem initiatorOf_eq (h : Awaits sidecar T a p) : Tables.initiatorOf p.tuple a.tuple.peer = a.tuple := by
  unfold Tables.initiatorOf
  rw [h.meets]

/-- Beside the row of `a` there is room for that of `p` if there were two places. -/
theorem hasRoom_put (h : Awaits sidecar T a p) :
    (T.proxy.put a.tuple (.fresh p.tuple)).HasRoom p.tuple ↔ T.proxy.size + 2 ≤ T.proxy.capacity := by
  obtain ⟨hnone, hnone'⟩ := h.unpaired
  rw [Table.HasRoom, Table.get?_put, if_neg h.ne, hnone']
  simp only [Option.isSome_none, Bool.false_eq_true, false_or, Table.put, hnone, if_false]
  omega

end Awaits

/-- The accept has claimed an origin and written no row. -/
@[simp] def Accepting.holdsOrigin : Accepting → Bool
  | .firstRow _ => true
  | _ => false

namespace Race

/-! ## Where the two pass each other -/

/-- The accept has claimed an origin and written no row, and the close has looked
for a row and not yet for an origin. -/
def Crossed (r : Race S) : Prop := r.accept.holdsOrigin = true ∧ r.close = .pending

instance : DecidablePred (Crossed (S := S)) := fun _ => inferInstanceAs (Decidable (_ ∧ _))

variable (a p : Socket S)

/-- At some point of the turns the handlers have passed each other. -/
def Crosses (r : Race S) (turns : List Side) : Prop := ∃ pre ∈ turns.inits, (r.run a p pre).Crossed

theorem crosses_nil {r : Race S} : r.Crosses a p [] ↔ r.Crossed := by simp [Crosses]

theorem crosses_snoc {r : Race S} {turns : List Side} {x : Side} :
    r.Crosses a p (turns ++ [x]) ↔ r.Crosses a p turns ∨ ((r.run a p turns).turn a p x).Crossed := by
  simp only [Crosses, List.mem_inits, List.prefix_concat_iff, or_and_right, exists_or, exists_eq_left, run_snoc]
  exact or_comm

/-! ## What each turn keeps -/

section Row
variable (T : Tables S)

/-- The table has two places, one for each row of a pair. -/
def Roomy : Prop := T.proxy.size + 2 ≤ T.proxy.capacity

/-- The pair is written. The row of `a` is there unless the close has come by since. -/
def Written (crossed : Prop) (close : Closing) (proxy : ProxyTable) : Prop :=
  (crossed → Roomy T ∧ close ≠ .proxy) ∧
    ((close = .proxy ∨ crossed) ∧ proxy.get? a.tuple = some (.fresh p.tuple) ∨
      ¬(close = .proxy ∨ crossed) ∧ proxy.get? a.tuple = none)

/-- No pair is written, or it was taken back. -/
def Spared (crossed : Prop) (proxy : ProxyTable) : Prop := (crossed → ¬Roomy T) ∧ proxy.get? a.tuple = none

/-- What the accept has come to, and the row of `a` with it. `T` are the tables in
the beginning, and `crossed` says that the handlers have passed each other. -/
def RowKept (crossed : Prop) (r : Race S) : Prop :=
  match r.accept with
  | .greet => False
  | .claim _ =>
    ¬crossed ∧ r.tables.proxy = T.proxy ∧
      ∀ origin, r.tables.pending.get? a.tuple.own = some origin →
        origin = a.tuple.peer ∧ (r.close = .proxy ∨ r.close = .pending)
  | .firstRow origin => origin = a.tuple.peer ∧ (crossed ↔ r.close ≠ .proxy) ∧ r.tables.proxy = T.proxy
  | .secondRow origin =>
    origin = a.tuple.peer ∧ (crossed → r.close ≠ .proxy) ∧ T.proxy.size < T.proxy.capacity ∧
      ((r.close = .proxy ∨ crossed) ∧ r.tables.proxy = T.proxy.put a.tuple (.fresh p.tuple) ∨
        ¬(r.close = .proxy ∨ crossed) ∧ r.tables.proxy = T.proxy)
  | .undo origin _ => origin = a.tuple.peer ∧ ¬Roomy T
  | .register _ none => Written a p T crossed r.close r.tables.proxy
  | .register _ (some _) => Spared a T crossed r.tables.proxy
  | .done _ => Written a p T crossed r.close r.tables.proxy ∨ Spared a T crossed r.tables.proxy

variable {a p T} {sidecar : Ipv4} {crossed : Prop} {r : Race S}

theorem RowKept.of_not_crossed (hn : ¬r.Crossed) (hk : RowKept a p T crossed r) :
    RowKept a p T (crossed ∨ r.Crossed) r := by
  rwa [or_iff_left hn]

/-- The accept looks for an origin. -/
theorem RowKept.claimed {U : Tables S} {reply : Tracked} {close : Closing} (h : Awaits sidecar T a p)
    (hk : RowKept a p T crossed ⟨U, .claim reply, close⟩) :
    let r' := turn a p ⟨U, .claim reply, close⟩ .accept
    RowKept a p T (crossed ∨ r'.Crossed) r' := by
  intro r'
  obtain ⟨hn, hproxy, horigin⟩ := hk
  dsimp only at hproxy horigin
  cases ho : U.pending.get? a.tuple.own with
  | none =>
    have hturn : r' = ⟨{ U with pending := (U.pending.remove p.tuple.peer).1 }, .done reply, close⟩ := by
      simp [r', turn, Accepting.step, Table.snd_remove, h.meets, ho]
    rw [hturn]
    refine .of_not_crossed (by simp [Crossed]) (.inr ⟨fun hc => absurd hc hn, ?_⟩)
    rw [hproxy]
    exact h.unpaired.1
  | some origin =>
    obtain ⟨rfl, hclose⟩ := horigin origin ho
    have hturn : r' = ⟨{ U with pending := (U.pending.remove p.tuple.peer).1 }, .firstRow a.tuple.peer, close⟩ := by
      simp [r', turn, Accepting.step, Table.snd_remove, h.meets, ho]
    rw [hturn]
    refine ⟨rfl, ?_, hproxy⟩
    rcases hclose with rfl | rfl <;> simp [Crossed, hn]

/-- The accept writes the row of `a`, or is refused it. -/
theorem RowKept.firstWritten {U : Tables S} {origin : Endpoint} {close : Closing} (h : Awaits sidecar T a p)
    (hk : RowKept a p T crossed ⟨U, .firstRow origin, close⟩) :
    let r' := turn a p ⟨U, .firstRow origin, close⟩ .accept
    RowKept a p T (crossed ∨ r'.Crossed) r' := by
  intro r'
  obtain ⟨rfl, hcrossed, hproxy⟩ := hk
  dsimp only at hcrossed hproxy
  have hnone := h.unpaired.1
  by_cases hroom : T.proxy.size < T.proxy.capacity
  · have hturn : r' =
        ⟨{ U with proxy := T.proxy.put a.tuple (.fresh p.tuple) }, .secondRow a.tuple.peer, close⟩ := by
      simp [r', turn, Accepting.step, Table.upsert_eq, Table.HasRoom, h.initiatorOf_eq, hproxy, hroom]
    rw [hturn]
    refine .of_not_crossed (by simp [Crossed]) ⟨rfl, hcrossed.1, hroom, .inl ⟨?_, rfl⟩⟩
    rw [hcrossed]
    exact Classical.em _
  · have hturn : r' = ⟨U, .register a.tuple.peer (some (.full U.proxy.name U.proxy.capacity)), close⟩ := by
      simp [r', turn, Accepting.step, Table.upsert_eq, Table.HasRoom, h.initiatorOf_eq, hproxy, hroom, hnone]
    rw [hturn]
    refine .of_not_crossed (by simp [Crossed]) ⟨fun _ => ?_, by rw [hproxy]; exact hnone⟩
    unfold Roomy
    omega

/-- The accept writes the row of `p`, or is refused it. -/
theorem RowKept.secondWritten {U : Tables S} {origin : Endpoint} {close : Closing} (h : Awaits sidecar T a p)
    (hk : RowKept a p T crossed ⟨U, .secondRow origin, close⟩) :
    let r' := turn a p ⟨U, .secondRow origin, close⟩ .accept
    RowKept a p T (crossed ∨ r'.Crossed) r' := by
  intro r'
  obtain ⟨rfl, hcrossed, hroom, hrow⟩ := hk
  dsimp only at hcrossed hrow
  have hother : p.tuple ≠ a.tuple := h.ne.symm
  rcases hrow with ⟨hstays, hproxy⟩ | ⟨hstays, hproxy⟩
  · by_cases hroomy : Roomy T
    · have hturn : r' =
          ⟨{ U with proxy := (T.proxy.put a.tuple (.fresh p.tuple)).put p.tuple (.fresh a.tuple) },
            .register a.tuple.peer none, close⟩ := by
        simp [r', turn, Accepting.step, Table.upsert_eq, h.initiatorOf_eq, hproxy, h.hasRoom_put.2 hroomy]
      rw [hturn]
      refine .of_not_crossed (by simp [Crossed]) ⟨fun hc => ⟨hroomy, hcrossed hc⟩, .inl ⟨hstays, ?_⟩⟩
      rw [Table.get?_put, if_neg hother, Table.get?_put_self]
    · have hturn : r' = ⟨U, .undo a.tuple.peer (.full U.proxy.name U.proxy.capacity), close⟩ := by
        simp [r', turn, Accepting.step, Table.upsert_eq, h.initiatorOf_eq, hproxy, mt h.hasRoom_put.1 hroomy]
      rw [hturn]
      exact .of_not_crossed (by simp [Crossed]) ⟨rfl, hroomy⟩
  · have hturn : r' =
        ⟨{ U with proxy := T.proxy.put p.tuple (.fresh a.tuple) }, .register a.tuple.peer none, close⟩ := by
      simp [r', turn, Accepting.step, Table.upsert_eq, Table.HasRoom, h.initiatorOf_eq, hproxy, hroom]
    rw [hturn]
    refine .of_not_crossed (by simp [Crossed]) ⟨fun hc => absurd (.inr hc) hstays, .inr ⟨hstays, ?_⟩⟩
    rw [Table.get?_put, if_neg hother, h.unpaired.1]

/-- The accept does an operation. -/
theorem RowKept.accept (h : Awaits sidecar T a p) (hk : RowKept a p T crossed r) :
    RowKept a p T (crossed ∨ (r.turn a p .accept).Crossed) (r.turn a p .accept) := by
  obtain ⟨U, accept, close⟩ := r
  cases accept with
  | greet => exact hk.elim
  | claim reply => exact hk.claimed h
  | firstRow origin => exact hk.firstWritten h
  | secondRow origin => exact hk.secondWritten h
  | undo origin e =>
    obtain ⟨rfl, hroom⟩ := hk
    have hturn : turn a p ⟨U, .undo a.tuple.peer e, close⟩ .accept =
        ⟨{ U with proxy := (U.proxy.remove a.tuple).1 }, .register a.tuple.peer (some e), close⟩ := by
      simp [turn, Accepting.step, h.initiatorOf_eq]
    rw [hturn]
    refine .of_not_crossed (by simp [Crossed]) ⟨fun _ => hroom, ?_⟩
    rw [Table.get?_remove, if_pos rfl]
  | register origin refused =>
    have hturn : turn a p ⟨U, .register origin refused, close⟩ .accept =
        ⟨(U.register p).tables, .done (Accepting.reply p origin refused (U.register p).reply), close⟩ := rfl
    have hproxy : (U.register p).tables.proxy = U.proxy := by rw [Tables.tables_register]
    rw [hturn]
    refine .of_not_crossed (by simp [Crossed]) ?_
    rw [RowKept, hproxy]
    cases refused with
    | none => exact .inl hk
    | some e => exact .inr hk
  | done reply => exact .of_not_crossed (by simp [Crossed, turn, Accepting.step]) hk

/-- Once it has looked for a row, the close leaves the proxy table alone. -/
theorem RowKept.of_later {r' : Race S} (hk : RowKept a p T crossed r) (haccept : r'.accept = r.accept)
    (hproxy : r'.tables.proxy = r.tables.proxy) (hc : r.close ≠ .proxy) (hc' : r'.close ≠ .proxy)
    (ho : ∀ origin, r'.tables.pending.get? a.tuple.own = some origin →
      r.tables.pending.get? a.tuple.own = some origin ∧ r.close ≠ .pending) :
    RowKept a p T crossed r' := by
  obtain ⟨U, accept, close⟩ := r
  obtain ⟨U', accept', close'⟩ := r'
  dsimp only at haccept hproxy hc hc' ho
  subst haccept
  have hwritten (h : Written a p T crossed close U.proxy) : Written a p T crossed close' U'.proxy := by
    rw [hproxy]
    simpa [Written, hc, hc'] using h
  cases accept' with
  | greet => exact hk.elim
  | claim reply =>
    obtain ⟨hn, hsame, horigin⟩ := hk
    refine ⟨hn, hproxy.trans hsame, fun origin h => ?_⟩
    obtain ⟨hold, hpending⟩ := ho origin h
    rcases (horigin origin hold).2 with h | h
    · exact absurd h hc
    · exact absurd h hpending
  | firstRow origin =>
    obtain ⟨hpeer, hcrossed, hsame⟩ := hk
    exact ⟨hpeer, hcrossed.trans (iff_of_true hc hc'), hproxy.trans hsame⟩
  | secondRow origin =>
    obtain ⟨hpeer, -, hroom, hrow⟩ := hk
    refine ⟨hpeer, fun _ => hc', hroom, ?_⟩
    rw [hproxy]
    simpa [hc, hc'] using hrow
  | undo origin e => exact hk
  | register origin refused =>
    cases refused with
    | none => exact hwritten hk
    | some e =>
      rw [RowKept, hproxy]
      exact hk
  | done reply =>
    rcases hk with hk | hk
    · exact .inl (hwritten hk)
    · rw [RowKept, hproxy]
      exact .inr hk

/-- The close looks for a row. -/
theorem RowKept.swept {U : Tables S} {accept : Accepting} (h : Awaits sidecar T a p)
    (hk : RowKept a p T crossed ⟨U, accept, .proxy⟩) :
    let r' : Race S := ⟨{ U with proxy := (U.proxy.remove a.tuple).1 }, accept, .pending⟩
    RowKept a p T (crossed ∨ r'.Crossed) r' := by
  intro r'
  obtain ⟨hnone, -⟩ := h.unpaired
  have hgone : (U.proxy.remove a.tuple).1.get? a.tuple = none := by rw [Table.get?_remove, if_pos rfl]
  have hsame (hproxy : U.proxy = T.proxy) : (U.proxy.remove a.tuple).1 = T.proxy := by
    rw [hproxy, Table.remove_of_none hnone]
  have hwritten (h : Written a p T crossed .proxy U.proxy) :
      Written a p T crossed .pending (U.proxy.remove a.tuple).1 := by
    have hn : ¬crossed := fun hc => (h.1 hc).2 rfl
    exact ⟨fun hc => absurd hc hn, .inr ⟨by simp [hn], hgone⟩⟩
  cases accept with
  | greet => exact hk.elim
  | claim reply =>
    obtain ⟨hn, hproxy, horigin⟩ := hk
    refine .of_not_crossed (by simp [r', Crossed]) ⟨hn, hsame hproxy, fun origin ho => ?_⟩
    exact ⟨(horigin origin ho).1, .inr rfl⟩
  | firstRow origin =>
    obtain ⟨rfl, -, hproxy⟩ := hk
    exact ⟨rfl, iff_of_true (.inr ⟨rfl, rfl⟩) nofun, hsame hproxy⟩
  | secondRow origin =>
    obtain ⟨rfl, hcrossed, hroom, hrow⟩ := hk
    have hn : ¬crossed := fun hc => hcrossed hc rfl
    have hback : (U.proxy.remove a.tuple).1 = T.proxy := by
      rcases hrow with ⟨-, hproxy⟩ | ⟨hstays, -⟩
      · rw [show U.proxy = _ from hproxy, Table.remove_put hnone]
      · exact absurd (.inl rfl) hstays
    refine .of_not_crossed (by simp [r', Crossed]) ⟨rfl, fun hc => absurd hc hn, hroom, .inr ⟨?_, hback⟩⟩
    simp [r', hn]
  | undo origin e => exact .of_not_crossed (by simp [r', Crossed]) hk
  | register origin refused =>
    refine .of_not_crossed (by simp [r', Crossed]) ?_
    cases refused with
    | none => exact hwritten hk
    | some e => exact ⟨hk.1, hgone⟩
  | done reply =>
    refine .of_not_crossed (by simp [r', Crossed]) ?_
    rcases hk with hk | hk
    · exact .inl (hwritten hk)
    · exact .inr ⟨hk.1, hgone⟩

/-- The close does an operation. -/
theorem RowKept.close (h : Awaits sidecar T a p) (hk : RowKept a p T crossed r) :
    RowKept a p T (crossed ∨ (r.turn a p .close).Crossed) (r.turn a p .close) := by
  obtain ⟨U, accept, close⟩ := r
  cases close with
  | proxy => exact hk.swept h
  | pending =>
    have hlater : RowKept a p T crossed (turn a p ⟨U, accept, .pending⟩ .close) := by
      refine hk.of_later rfl rfl (by simp) (by simp [turn, Closing.step]) ?_
      intro origin ho
      rw [turn, Closing.step, Table.get?_remove, if_pos rfl] at ho
      cases ho
    exact .of_not_crossed (by simp [Crossed, turn, Closing.step]) hlater
  | redirect =>
    have hlater : RowKept a p T crossed (turn a p ⟨U, accept, .redirect⟩ .close) := by
      refine hk.of_later rfl rfl (by simp) (by simp [turn, Closing.step]) ?_
      intro origin ho
      exact ⟨ho, by simp⟩
    exact .of_not_crossed (by simp [Crossed, turn, Closing.step]) hlater
  | done reply => exact .of_not_crossed (by simp [Crossed, turn, Closing.step]) hk

end Row

/-! ## What the close takes away for good -/

section Swept
variable {a p} {T : Tables S} {sidecar : Ipv4} {r : Race S} {k : Tuple} {l : Endpoint}

/-- Neither handler leaves an origin. -/
theorem pending_turn (h : r.tables.pending.get? l = none) (x : Side) :
    (r.turn a p x).tables.pending.get? l = none := by
  have hremove (j : Endpoint) : (r.tables.pending.remove j).1.get? l = none := by
    rw [Table.get?_remove]
    split
    · rfl
    · exact h
  obtain ⟨U, accept, close⟩ := r
  cases x with
  | accept =>
    cases accept with
    | greet | register => simpa only [turn, Accepting.step, Tables.tables_register] using h
    | claim reply => exact hremove _
    | firstRow origin | secondRow origin =>
      simp only [turn, Accepting.step]
      split <;> exact h
    | undo | done => exact h
  | close =>
    cases close with
    | pending => exact hremove _
    | proxy | redirect | done => exact h

/-- The accept registers its own socket and no other. -/
theorem redirect_turn (hk : k ≠ p.tuple) (h : r.tables.redirect.get? k = none) (x : Side) :
    (r.turn a p x).tables.redirect.get? k = none := by
  obtain ⟨U, accept, close⟩ := r
  have hregister : (U.register p).tables.redirect.get? k = none := by
    rw [Tables.tables_register, Table.get?_tryPut, if_neg fun hp => hk hp.2.symm]
    exact h
  cases x with
  | accept =>
    cases accept with
    | greet | register => exact hregister
    | firstRow origin | secondRow origin =>
      simp only [turn, Accepting.step]
      split <;> exact h
    | claim | undo | done => exact h
  | close =>
    cases close with
    | redirect =>
      simp only [turn, Closing.step, Table.get?_remove]
      split
      · rfl
      · exact h
    | proxy | pending | done => exact h

/-- What is gone: the origin of `a` and its handle once the close has come by, and
all there could be of a socket `p` that the accept ignores. -/
structure Swept (T : Tables S) (a p : Socket S) (r : Race S) : Prop where
  origin : (r.close = .redirect ∨ ∃ reply, r.close = .done reply) → r.tables.pending.get? a.tuple.own = none
  handle : (∃ reply, r.close = .done reply) → r.tables.redirect.get? a.tuple = none
  elsewhere : ∀ l, T.pending.get? l = none → r.tables.pending.get? l = none
  ignored : p.isIpv4 = false →
    r.accept = .done .ignored ∧ r.tables.proxy.get? p.tuple = none ∧ r.tables.redirect.get? p.tuple = none

theorem Swept.turn (hne : a.tuple ≠ p.tuple) (hs : Swept T a p r) (x : Side) : Swept T a p (r.turn a p x) := by
  have helsewhere (l : Endpoint) (h : T.pending.get? l = none) := pending_turn (a := a) (p := p) (hs.elsewhere l h) x
  cases x with
  | accept =>
    refine ⟨?_, ?_, helsewhere, ?_⟩
    · exact fun h => pending_turn (hs.origin h) _
    · exact fun h => redirect_turn hne (hs.handle h) _
    · intro hi
      obtain ⟨haccept, hrows⟩ := hs.ignored hi
      rw [Race.turn, haccept]
      exact ⟨rfl, hrows⟩
  | close =>
    obtain ⟨U, accept, close⟩ := r
    cases close with
    | proxy =>
      refine ⟨?_, ?_, helsewhere, fun hi => ?_⟩
      · rintro (h | ⟨reply, h⟩) <;> cases h
      · rintro ⟨reply, h⟩
        cases h
      · obtain ⟨haccept, hrow, hhandle⟩ := hs.ignored hi
        refine ⟨haccept, ?_, hhandle⟩
        exact (Table.get?_remove _ _ _).trans ((if_neg hne).trans hrow)
    | pending =>
      refine ⟨fun _ => ?_, ?_, helsewhere, hs.ignored⟩
      · exact (Table.get?_remove _ _ _).trans (if_pos rfl)
      · rintro ⟨reply, h⟩
        cases h
    | redirect =>
      refine ⟨fun _ => hs.origin (.inl rfl), fun _ => ?_, helsewhere, fun hi => ?_⟩
      · exact (Table.get?_remove _ _ _).trans (if_pos rfl)
      · obtain ⟨haccept, hrow, hhandle⟩ := hs.ignored hi
        refine ⟨haccept, hrow, ?_⟩
        exact (Table.get?_remove _ _ _).trans ((if_neg hne).trans hhandle)
    | done reply => exact hs

end Swept

/-! ## Whole races -/

section Whole
variable {a p} {T : Tables S} {sidecar : Ipv4} {turns : List Side}

theorem start_eq (h : Awaits sidecar T a p) :
    start sidecar T a p = ⟨T, if p.isIpv4 = true then .claim .uncorrelated else .done .ignored, .proxy⟩ := by
  have hs : p.tuple.peer.addr ≠ sidecar := by
    rw [h.meets]
    exact h.outside
  unfold start Accepting.start Closing.start
  cases hi : p.isIpv4 <;> simp [h.isIpv4, hs]

theorem rowKept_start (h : Awaits sidecar T a p) :
    RowKept a p T (start sidecar T a p).Crossed (start sidecar T a p) := by
  rw [start_eq h]
  cases hi : p.isIpv4 with
  | false => exact .inr ⟨by simp [Crossed], h.unpaired.1⟩
  | true =>
    refine ⟨by simp [Crossed], rfl, fun origin ho => ⟨?_, .inl rfl⟩⟩
    exact Option.some.inj (ho.symm.trans h.origin)

theorem swept_start (h : Awaits sidecar T a p) : Swept T a p (start sidecar T a p) := by
  rw [start_eq h]
  refine ⟨?_, ?_, fun _ => id, fun hi => ?_⟩
  · rintro (hc | ⟨reply, hc⟩) <;> cases hc
  · rintro ⟨reply, hc⟩
    cases hc
  · exact ⟨by simp [hi], h.unpaired.2, h.unregistered⟩

theorem kept_run (h : Awaits sidecar T a p) (turns : List Side) :
    let r := start sidecar T a p
    RowKept a p T (r.Crosses a p turns) (r.run a p turns) ∧ Swept T a p (r.run a p turns) := by
  intro r
  induction turns using List.reverseRecOn with
  | nil =>
    rw [crosses_nil]
    exact ⟨rowKept_start h, swept_start h⟩
  | append_singleton turns x ih =>
    obtain ⟨hrow, hswept⟩ := ih
    rw [crosses_snoc, run_snoc]
    refine ⟨?_, hswept.turn h.ne x⟩
    cases x with
    | accept => exact hrow.accept h
    | close => exact hrow.close h

/-- When both are done, the row of `a` is there if they have passed each other and
the table has room for the pair. -/
theorem proxy_over (h : Awaits sidecar T a p) (ho : ((start sidecar T a p).run a p turns).Over) :
    ((start sidecar T a p).run a p turns).tables.proxy.get? a.tuple = some (.fresh p.tuple) ∧
        (start sidecar T a p).Crosses a p turns ∧ Roomy T ∨
      ((start sidecar T a p).run a p turns).tables.proxy.get? a.tuple = none ∧
        ¬((start sidecar T a p).Crosses a p turns ∧ Roomy T) := by
  obtain ⟨⟨reply, haccept⟩, reply', hclose⟩ := ho
  have hrow := (kept_run h turns).1
  rw [RowKept, haccept, hclose] at hrow
  rcases hrow with ⟨hcrossed, ⟨hstays, hrow⟩ | ⟨hstays, hrow⟩⟩ | ⟨hcrossed, hrow⟩
  · have hcross := hstays.resolve_left nofun
    exact .inl ⟨hrow, hcross, (hcrossed hcross).1⟩
  · exact .inr ⟨hrow, fun hc => hstays (.inr hc.1)⟩
  · exact .inr ⟨hrow, fun hc => hcrossed hc.1 hc.2⟩

/-- The close of `p` takes away all there is of `p`, and nothing of `a`. -/
theorem closed_after {r : Race S} (h : Awaits sidecar T a p) (hs : Swept T a p r) (ho : r.Over) :
    let after := (r.tables.stateChanged p .close).tables
    after.NoRows p.tuple ∧ after.pending.get? a.tuple.own = none ∧ after.redirect.get? a.tuple = none ∧
      after.proxy.get? a.tuple = r.tables.proxy.get? a.tuple := by
  intro after
  have hne : p.tuple ≠ a.tuple := h.ne.symm
  have horigin := hs.origin (.inr ho.2)
  have hhandle := hs.handle ho.2
  have hafter : after = _ := Tables.tables_stateChanged r.tables p .close
  cases hi : p.isIpv4 with
  | true =>
    rw [hafter, if_pos ⟨hi, rfl⟩]
    simp [Tables.NoRows, Table.get?_remove, hne, horigin, hhandle]
  | false =>
    rw [hafter, if_neg (by simp [hi])]
    obtain ⟨-, hrow, hhandle'⟩ := hs.ignored hi
    refine ⟨⟨hrow, ?_, hhandle'⟩, horigin, hhandle, rfl⟩
    by_cases hown : p.tuple.own = a.tuple.own
    · rw [hown]
      exact horigin
    · exact hs.elsewhere _ (h.elsewhere hown)

end Whole

end Race

/-- An accept of `p` and a close of `a`, in any order of their operations, and then a
close of `p`. Of neither socket anything is left but, exactly if the two have passed
each other and the table has room for the pair, the row of `a`, fresh and pointing at
`p`. This is so from all tables that know nothing of the two before `a` connects. -/
theorem row_left_iff_handlers_cross (sidecar : Ipv4) (a p : Socket S) :
    (∀ T : Tables S, p.tuple.peer = a.tuple.own → T.NoRows a.tuple → T.NoRows p.tuple →
      (T.connected sidecar a).tables.pending.get? a.tuple.own = some a.tuple.peer →
        Awaits sidecar (T.connected sidecar a).tables a p) ∧
      ∀ (T : Tables S) (turns : List Side), Awaits sidecar T a p →
        let start := Race.start sidecar T a p
        (start.run a p turns).Over →
          let after := ((start.run a p turns).tables.stateChanged p .close).tables
          after.NoRows p.tuple ∧ after.pending.get? a.tuple.own = none ∧ after.redirect.get? a.tuple = none ∧
            (after.proxy.get? a.tuple ≠ none ↔
              start.Crosses a p turns ∧ T.proxy.size + 2 ≤ T.proxy.capacity) ∧
            ∀ row, after.proxy.get? a.tuple = some row → row = .fresh p.tuple := by
  refine ⟨fun T => Awaits.of_connected, ?_⟩
  intro T turns h start hover after
  have hswept := (Race.kept_run h turns).2
  obtain ⟨hnorows, horigin, hhandle, hproxy⟩ := Race.closed_after h hswept hover
  rw [hproxy]
  refine ⟨hnorows, horigin, hhandle, ?_⟩
  rcases Race.proxy_over h hover with ⟨hrow, hc⟩ | ⟨hrow, hc⟩
  · rw [hrow]
    exact ⟨iff_of_true nofun hc, fun row he => (Option.some.inj he).symm⟩
  · rw [hrow]
    exact ⟨iff_of_false (fun hn => hn rfl) hc, nofun⟩

namespace Overtaking

def dialer : Socket Nat := ⟨.inet, ⟨⟨⟨10, 0, 0, 5⟩, 40000⟩, ⟨⟨10, 0, 0, 9⟩, 8080⟩⟩, 1⟩

/-- The proxy's socket, accepted from the dialer's endpoint. -/
def acceptor : Socket Nat := ⟨.inet, ⟨⟨⟨10, 0, 0, 5⟩, 15001⟩, dialer.tuple.own⟩, 2⟩

/-- The dialer has connected. -/
def tables : Tables Nat := ((Tables.empty 4).connected defaultSidecar dialer).tables

def start : Race Nat := Race.start defaultSidecar tables dialer acceptor

/-- The tables after the turns and the close of the acceptor. -/
def after (turns : List Side) : Tables Nat :=
  ((start.run dialer acceptor turns).tables.stateChanged acceptor .close).tables

/-- The dialer's row is written before the close looks for it. -/
def behind : List Side := [.accept, .accept, .close, .accept, .close, .accept, .close]

/-- The whole close comes between the claim and the dialer's row. -/
def between : List Side := [.accept, .close, .close, .close, .accept, .accept, .accept]

theorem over_behind : (start.run dialer acceptor behind).Over :=
  ⟨⟨.correlated dialer.tuple acceptor.tuple, by decide +kernel⟩, .closed, by decide +kernel⟩

theorem over_between : (start.run dialer acceptor between).Over :=
  ⟨⟨.correlated dialer.tuple acceptor.tuple, by decide +kernel⟩, .closed, by decide +kernel⟩

end Overtaking

open Overtaking in
/-- A close that finds the row takes it away, and nothing is left. -/
theorem no_row_left_behind_accept :
    (Tables.empty 4 : Tables Nat).NoRows dialer.tuple ∧ (start.run dialer acceptor behind).Over ∧
      ¬start.Crosses dialer acceptor behind ∧ (after behind).NoRows dialer.tuple ∧
      (after behind).NoRows acceptor.tuple := by
  have hcrosses : ¬start.Crosses dialer acceptor behind := by
    unfold Race.Crosses
    decide +kernel
  have hnorows : (Tables.empty 4 : Tables Nat).NoRows dialer.tuple := by decide +kernel
  obtain ⟨hconnected, hraces⟩ := row_left_iff_handlers_cross defaultSidecar dialer acceptor
  have hawaits : Awaits defaultSidecar tables dialer acceptor :=
    hconnected (Tables.empty 4) rfl hnorows (by decide +kernel) (by decide +kernel)
  obtain ⟨hacceptor, horigin, hhandle, hrow, -⟩ := hraces tables behind hawaits over_behind
  refine ⟨hnorows, over_behind, hcrosses, ⟨?_, horigin, hhandle⟩, hacceptor⟩
  exact not_not.1 fun hn => hcrosses (hrow.1 hn).1

open Overtaking in
/-- A close between the claim and the row leaves the row of a socket that is closed. -/
theorem close_within_accept_leaves_row :
    (Tables.empty 4 : Tables Nat).NoRows dialer.tuple ∧ (Tables.empty 4 : Tables Nat).NoRows acceptor.tuple ∧
      acceptor.tuple.peer = dialer.tuple.own ∧ tables.pending.get? dialer.tuple.own = some dialer.tuple.peer ∧
      (start.run dialer acceptor between).Over ∧
      (after between).proxy.get? dialer.tuple = some (.fresh acceptor.tuple) ∧
      ¬(after between).NoRows dialer.tuple :=
  ⟨by decide +kernel, by decide +kernel, rfl, by decide +kernel, over_between, by decide +kernel, by decide +kernel⟩

end Splice
