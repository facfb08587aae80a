import Splice.Proofs.Attempts
/-!
# Rows of the kernel's maps belong to live sockets

A row of the kernel's maps lives no longer than its socket, at any limits and
whatever inserts are refused: a pending origin and a proxy row belong to a socket
that has been established and has not closed since, and a proxy row points at a
socket it was paired with since its own last closed. An insert that is refused
leaves an older row of the same socket, or none, and both keep to this.
-/

namespace Splice.Kernel

variable {S : Type} {h : List (Moment S)} {m m' : Maps S} {x : Moment S} {c : SocketContext S} {k p : RawTuple}
  {l r : RawEndpoint}

/-! ## What a history says of a socket -/

/-- The socket of `k` has connected or been accepted, and has not closed since. -/
def Open (h : List (Moment S)) (k : RawTuple) : Prop :=
  Since (fun x => x.call.Connects k ∨ x.call.Accepts k) (·.call.Closes k) h

/-- The socket at `l` has connected to `r`, and has not closed since. -/
def Waits (h : List (Moment S)) (l r : RawEndpoint) : Prop :=
  Since (·.call.Connects ⟨l, r⟩) (·.call.Closes ⟨l, r⟩) h

/-- The sockets of `k` and `p` have been paired, and that of `k` has not closed since. -/
def Paired (h : List (Moment S)) (k p : RawTuple) : Prop := Since (·.Pairs k p) (·.call.Closes k) h

theorem Waits.open (hw : Waits h l r) : Open h ⟨l, r⟩ := by
  obtain ⟨pre, x, post, hx, hc, hn⟩ := hw
  exact ⟨pre, x, post, hx, .inl hc, hn⟩

theorem Open.later (ho : Open h k) (hn : ¬x.call.Closes k) : Open (h ++ [x]) k := since_snoc.2 (.inr ⟨hn, ho⟩)

theorem Waits.later (hw : Waits h l r) (hn : ¬x.call.Closes ⟨l, r⟩) : Waits (h ++ [x]) l r :=
  since_snoc.2 (.inr ⟨hn, hw⟩)

theorem Paired.later (hp : Paired h k p) (hn : ¬x.call.Closes k) : Paired (h ++ [x]) k p :=
  since_snoc.2 (.inr ⟨hn, hp⟩)

/-! ## The invariant -/

/-- Every row belongs to a live socket. -/
structure Live (h : List (Moment S)) (m : Maps S) : Prop where
  pending : Every (Waits h) m.pending
  proxy : Every (fun k entry => Open h k ∧ Paired h k entry.redirect) m.proxy

/-- The row a write inserts belongs to a live socket. -/
def Write.Sound (h : List (Moment S)) : Write S → Prop
  | .addPending l r => Waits h l r
  | .putProxy k entry => Open h k ∧ Paired h k entry.redirect
  | _ => True

namespace Live

theorem perform {w : Write S} (hl : Live h m) (hw : w.Sound h) : Live h (m.perform w) := by
  cases w with
  | addPending l r =>
    refine ⟨?_, hl.proxy⟩
    simp only [Maps.perform]
    split
    · exact hl.pending
    · exact hl.pending.insert hw
  | putProxy k entry => exact ⟨hl.pending, hl.proxy.insert hw⟩
  | putRedirect k socket => exact ⟨hl.pending, hl.proxy⟩
  | erasePending l => exact ⟨hl.pending.erase, hl.proxy⟩
  | eraseProxy k => exact ⟨hl.pending, hl.proxy.erase⟩

/-- A moment in which no socket closes takes no one's life. -/
theorem later (hl : Live h m) (hn : ∀ k, ¬x.call.Closes k) : Live (h ++ [x]) m := by
  constructor
  · exact hl.pending.mono fun l r hw => hw.later (hn _)
  · exact hl.proxy.mono fun k _ hr => ⟨hr.1.later (hn k), hr.2.later (hn k)⟩

end Live

/-! ## One call -/

/-- An accept writes the row of another socket too: that one lives because its
origin was still pending. -/
theorem sound_of_mem_pairWrites {w : Write S} {origin : RawEndpoint} (hl : Live h m)
    (haccepts : (Call.lifecycle c).Accepts c.key) (horigin : m.pending[c.key.peer]? = some origin)
    (hw : w ∈ Maps.pairWrites c.key c.socket origin) (hn : ∀ k, ¬(Call.lifecycle c).Closes k) :
    w.Sound (h ++ [⟨m, .lifecycle c⟩]) := by
  have hjoins : (⟨m, .lifecycle c⟩ : Moment S).Joins ⟨c.key.peer, origin⟩ c.key := ⟨haccepts, rfl, horigin⟩
  have hopen : Open h ⟨c.key.peer, origin⟩ := (hl.pending _ _ horigin).open
  simp only [Maps.pairWrites, List.mem_cons, List.not_mem_nil, or_false] at hw
  rcases hw with rfl | rfl | rfl | rfl
  · exact ⟨hopen.later (hn _), since_snoc.2 (.inl (.inl hjoins))⟩
  · exact ⟨since_snoc.2 (.inl (.inr haccepts)), since_snoc.2 (.inl (.inr hjoins))⟩
  · trivial
  · trivial

/-- Unless it closes a socket, an event makes the lifecycle program write rows of
live sockets only. -/
theorem sound_of_mem_writes {w : Write S} (hl : Live h m) (hw : w ∈ m.writes c)
    (hn : ∀ k, ¬(Call.lifecycle c).Closes k) : w.Sound (h ++ [⟨m, .lifecycle c⟩]) := by
  unfold Maps.writes at hw
  split at hw
  · cases hw
  rename_i hi
  have hi : c.isIpv4 = true := by simpa using hi
  split at hw
  · rename_i ho
    have hconnects : (Call.lifecycle c).Connects c.key := ⟨hi, ho, rfl⟩
    split at hw
    · rw [List.mem_singleton.1 hw]
      trivial
    · split at hw
      · cases hw
      · simp only [List.mem_cons, List.not_mem_nil, or_false] at hw
        rcases hw with rfl | rfl
        · exact since_snoc.2 (.inl hconnects)
        · trivial
  split at hw
  · rename_i _ ho
    rcases List.mem_append.1 hw with hw | hw
    · split at hw
      · rw [List.mem_singleton.1 hw]
        trivial
      · cases hw
    · cases horigin : m.pending[c.key.peer]? with
      | none =>
        rw [horigin] at hw
        cases hw
      | some origin =>
        rw [horigin] at hw
        exact sound_of_mem_pairWrites hl ⟨hi, ho, rfl⟩ horigin hw hn
  · split at hw
    · rename_i hc
      exact absurd ⟨hi, hc, rfl⟩ (hn c.key)
    · cases hw

theorem writes_of_closes (hc : (Call.lifecycle c).Closes k) : m.writes c = [.eraseProxy k, .erasePending k.own] := by
  obtain ⟨hi, ⟨ho, ha⟩, rfl⟩ := hc
  unfold Maps.writes
  rw [if_neg (by simp [hi]), if_neg (by rw [ho]; decide), if_neg (by rw [ho]; decide), if_pos ⟨ho, ha⟩]

/-- A close removes the rows its socket leaves behind. -/
theorem Live.closed (hl : Live h m) (hc : (Call.lifecycle c).Closes k) :
    Live (h ++ [⟨m, .lifecycle c⟩]) ((m.writes c).foldl Maps.perform m) := by
  have honly (j : RawTuple) (hj : (Call.lifecycle c).Closes j) : j = k := hj.2.2.symm.trans hc.2.2
  rw [writes_of_closes hc]
  constructor
  · refine hl.pending.erase_of_ne fun l r hne hw => hw.later fun hcl => hne ?_
    rw [← honly _ hcl]
  · refine hl.proxy.erase_of_ne fun j entry hne ⟨hopen, hpaired⟩ => ?_
    exact ⟨hopen.later fun hcl => hne (honly j hcl), hpaired.later fun hcl => hne (honly j hcl)⟩

theorem Live.lifecycle (hl : Live h m) (hs : Carries m (m.writes c) m') : Live (h ++ [⟨m, .lifecycle c⟩]) m' := by
  by_cases hc : ∃ k, (Call.lifecycle c).Closes k
  · obtain ⟨k, hc⟩ := hc
    have hremovals : ∀ w ∈ m.writes c, w.isInsert = false := by
      rw [writes_of_closes hc]
      simp [Write.isInsert]
    rw [hs.eq_of_removals hremovals]
    exact hl.closed hc
  · have hn : ∀ k, ¬(Call.lifecycle c).Closes k := fun k hk => hc ⟨k, hk⟩
    exact hs.keeps (fun w hw n hn' => hn'.perform (sound_of_mem_writes hl hw hn)) (hl.later hn)

/-- Messages and frames change the flags of rows and nothing else of them. -/
theorem Live.flag {flag : UInt32} {entry : RawEntry} (hl : Live h m) (he : m.proxy[k]? = some entry) :
    Every (fun k entry => Open h k ∧ Paired h k entry.redirect) (m.proxy.insert k { entry with flag }) :=
  hl.proxy.insert (hl.proxy k entry he)

theorem Live.message (hl : Live h m) (k : RawTuple) : Live h (m.message k).maps := by
  rw [Maps.maps_message]
  refine ⟨hl.pending, ?_⟩
  dsimp only
  split
  · exact hl.proxy
  · unfold Maps.arm
    cases he : m.proxy[k]? with
    | none => exact hl.proxy
    | some entry =>
      dsimp only
      split
      · exact hl.flag he
      · exact hl.proxy

theorem Live.disable (hl : Live h m) (k : RawTuple) : Live h (m.disable k) := by
  unfold Maps.disable
  cases he : m.proxy[k]? with
  | none => exact hl
  | some entry =>
    dsimp only
    split
    · exact hl
    · exact ⟨hl.pending, hl.flag he⟩

theorem Live.step {c : Call S} (hl : Live h m) (hs : m.Steps c m') : Live (h ++ [⟨m, c⟩]) m' := by
  cases c with
  | lifecycle c => exact hl.lifecycle hs
  | message c =>
    obtain rfl : m' = (m.message c.key).maps := hs
    exact (hl.later fun _ => id).message c.key
  | egress frame =>
    obtain rfl : m' = (classify m frame).maps := hs
    unfold classify
    split
    · exact hl.later fun _ => id
    · exact (hl.later fun _ => id).disable _
  | socketDied | setTracing | setLimit =>
    rw [show m' = _ from hs]
    exact ⟨(hl.later fun _ => id).pending, (hl.later fun _ => id).proxy⟩

/-! ## Runs -/

theorem live_of_reaches (hr : Reaches h m) : Live h m := by
  induction hr with
  | empty => exact ⟨every_empty, every_empty⟩
  | step _ hs ih => exact ih.step hs

/-- In every state that the programs can reach, under limits that change at will
and even if any insert may be refused, the socket of a proxy row is established
and not closed since, and was paired with the row's target since it last closed;
a pending origin `l → r` belongs to a connected socket at `l` that has not closed
since. -/
theorem rows_are_live_at_any_limit :
    (∀ cs : List (Call S), Reaches (Maps.empty.moments cs) (Maps.empty.callAll cs)) ∧
      ∀ (h : List (Moment S)) (m : Maps S), Reaches h m →
        (∀ k entry, m.proxy[k]? = some entry → Open h k) ∧
          (∀ l r, m.pending[l]? = some r → Waits h l r) ∧
          ∀ k entry, m.proxy[k]? = some entry → Paired h k entry.redirect := by
  refine ⟨reaches_callAll, fun h m hr => ?_⟩
  have hl := live_of_reaches hr
  refine ⟨?_, hl.pending, ?_⟩
  · intro k entry hrow
    exact (hl.proxy k entry hrow).1
  · intro k entry hrow
    exact (hl.proxy k entry hrow).2

namespace LastRow

def dialer : RawTuple := ⟨⟨0x0500000a, 40000⟩, ⟨0x0900000a, 8080⟩⟩

def acceptor : RawTuple := ⟨⟨0x0500000a, 15001⟩, dialer.own⟩

/-- Maps with room for one row each meet a pair. -/
def calls : List (Call Nat) :=
  [.setLimit 1, .lifecycle (.inet opConnected dialer 0 1), .lifecycle (.inet opAccepted acceptor 0 2)]

end LastRow

/-- One row of the pair finds a place; its socket is live, and was paired with the
socket the row points at. -/
theorem rows_are_live_at_last_place :
    let h := Maps.empty.moments LastRow.calls
    let m := Maps.empty.callAll LastRow.calls
    Reaches h m ∧ m.proxy[LastRow.dialer]? = some ⟨LastRow.acceptor, ProxyState.init.flag⟩ ∧
      m.proxy[LastRow.acceptor]? = none ∧ Open h LastRow.dialer ∧ Paired h LastRow.dialer LastRow.acceptor := by
  intro h m
  have hr : Reaches h m := (rows_are_live_at_any_limit (S := Nat)).1 LastRow.calls
  have hrow : m.proxy[LastRow.dialer]? = some ⟨LastRow.acceptor, ProxyState.init.flag⟩ := by decide +kernel
  obtain ⟨hopen, -, hpaired⟩ := rows_are_live_at_any_limit.2 h m hr
  exact ⟨hr, hrow, by decide +kernel, hopen _ _ hrow, hpaired _ _ hrow⟩

end Splice.Kernel
