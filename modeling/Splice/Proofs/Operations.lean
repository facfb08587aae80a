import Splice.Proofs.Handlers
/-!
# Handlers operation by operation

Handlers run at the same time on the same tables, and only a single operation on a
single table is atomic. So a handler at work is a place among its operations,
together with what it has met so far: `Accepting` for an accepted socket, `Closing`
for one that closes. In a `Race` two such handlers share the tables, and each turn
one of them does its next operation. A handler that gets all its turns in a row is
the handler of the bypass (`run_accept`, `run_close`).
-/

namespace Splice

variable {S : Type}

/-! ## An accepted socket -/

/-- What the handler of an accepted socket does next. -/
inductive Accepting where
  /-- It registers a socket whose peer is the sidecar. -/
  | greet
  /-- It takes the origin pending at the peer's endpoint; without one it answers `reply`. -/
  | claim (reply : Tracked)
  | firstRow (origin : Endpoint)
  | secondRow (origin : Endpoint)
  /-- The second row was refused: it removes the first. -/
  | undo (origin : Endpoint) (e : TableError)
  | register (origin : Endpoint) (refused : Option TableError)
  | done (reply : Tracked)
deriving DecidableEq

namespace Accepting

/-- Where the handler begins. -/
def start (sidecar : Ipv4) (s : Socket S) : Accepting :=
  if !s.isIpv4 then .done .ignored
  else if s.tuple.peer.addr = sidecar then .greet
  else .claim .uncorrelated

/-- The answer to a socket whose pair was written, or refused, and that was then registered. -/
def reply (s : Socket S) (origin : Endpoint) : Option TableError → Tracked → Tracked
  | some e, _ | none, .degraded e => .degraded e
  | none, _ => .correlated (Tables.initiatorOf s.tuple origin) s.tuple

/-- One operation, and what comes after it. -/
def step (s : Socket S) (T : Tables S) : Accepting → Tables S × Accepting
  | .greet => ((T.register s).tables, .claim (T.register s).reply)
  | .claim reply =>
    ({ T with pending := (T.pending.remove s.tuple.peer).1 },
      match (T.pending.remove s.tuple.peer).2 with
      | none => .done reply
      | some origin => .firstRow origin)
  | .firstRow origin =>
    match T.proxy.upsert (Tables.initiatorOf s.tuple origin) (.fresh s.tuple) with
    | .ok proxy => ({ T with proxy }, .secondRow origin)
    | .error e => (T, .register origin (some e))
  | .secondRow origin =>
    match T.proxy.upsert s.tuple (.fresh (Tables.initiatorOf s.tuple origin)) with
    | .ok proxy => ({ T with proxy }, .register origin none)
    | .error e => (T, .undo origin e)
  | .undo origin e =>
    ({ T with proxy := (T.proxy.remove (Tables.initiatorOf s.tuple origin)).1 }, .register origin (some e))
  | .register origin refused => ((T.register s).tables, .done (reply s origin refused (T.register s).reply))
  | .done reply => (T, .done reply)

end Accepting

/-! ## A socket that closes -/

/-- Where the handler of a closing socket removes a row next. -/
inductive Closing where
  | proxy
  | pending
  | redirect
  | done (reply : Tracked)
deriving DecidableEq

namespace Closing

def start (s : Socket S) : Closing := if !s.isIpv4 then .done .ignored else .proxy

def step (s : Socket S) (T : Tables S) : Closing → Tables S × Closing
  | .proxy => ({ T with proxy := (T.proxy.remove s.tuple).1 }, .pending)
  | .pending => ({ T with pending := (T.pending.remove s.tuple.own).1 }, .redirect)
  | .redirect => ({ T with redirect := (T.redirect.remove s.tuple).1 }, .done .closed)
  | .done reply => (T, .done reply)

end Closing

/-! ## Two handlers at once -/

/-- An accept and a close at work on the same tables. -/
structure Race (S : Type) where
  tables : Tables S
  accept : Accepting
  close : Closing

/-- Who does its next operation. -/
inductive Side where
  | accept
  | close
deriving DecidableEq

namespace Race

/-- The handlers of the accepted socket `p` and of the closing socket `a` begin. -/
def start (sidecar : Ipv4) (T : Tables S) (a p : Socket S) : Race S := ⟨T, .start sidecar p, .start a⟩

variable (a p : Socket S)

/-- One operation. A handler that is done does nothing. -/
def turn (r : Race S) : Side → Race S
  | .accept => ⟨(r.accept.step p r.tables).1, (r.accept.step p r.tables).2, r.close⟩
  | .close => ⟨(r.close.step a r.tables).1, r.accept, (r.close.step a r.tables).2⟩

/-- The race after some turns, the first one first. -/
def run (r : Race S) (turns : List Side) : Race S := turns.foldl (turn a p) r

/-- Both handlers are done. -/
def Over (r : Race S) : Prop := (∃ reply, r.accept = .done reply) ∧ ∃ reply, r.close = .done reply

@[simp] theorem run_nil (r : Race S) : r.run a p [] = r := rfl

@[simp] theorem run_cons (r : Race S) (x : Side) (turns : List Side) :
    r.run a p (x :: turns) = (r.turn a p x).run a p turns := rfl

theorem run_snoc (r : Race S) (turns : List Side) (x : Side) :
    r.run a p (turns ++ [x]) = (r.run a p turns).turn a p x := by
  simp [run, List.foldl_append]

/-! ## One handler at a time -/

/-- The turns of a pair: at most four, once the origin is claimed. -/
theorem run_correlate (T : Tables S) (origin : Endpoint) (close : Closing) :
    (⟨T, .firstRow origin, close⟩ : Race S).run a p (.replicate 4 .accept) =
      ⟨(T.correlate p origin).tables, .done (T.correlate p origin).reply, close⟩ := by
  simp only [List.replicate_succ, List.replicate_zero, run_cons, run_nil]
  unfold Tables.correlate Table.insertPair
  cases hfirst : T.proxy.upsert ⟨p.tuple.peer, origin⟩ (.fresh p.tuple) with
  | error e => simp [turn, Accepting.step, Tables.initiatorOf, Accepting.reply, hfirst]
  | ok proxy =>
    cases hsecond : proxy.upsert p.tuple (.fresh ⟨p.tuple.peer, origin⟩) with
    | error e => simp [turn, Accepting.step, Tables.initiatorOf, Accepting.reply, hfirst, hsecond]
    | ok proxy =>
      simp only [turn, Accepting.step, Tables.initiatorOf, hfirst, hsecond]
      cases hreply : ({ T with proxy }.register p).reply <;> simp [Accepting.reply, Tables.initiatorOf]

theorem run_claim (T : Tables S) (reply : Tracked) (close : Closing) :
    (⟨T, .claim reply, close⟩ : Race S).run a p (.replicate 5 .accept) =
      match T.pending.remove p.tuple.peer with
      | (_, none) => ⟨T, .done reply, close⟩
      | (pending, some origin) =>
        let r := { T with pending }.correlate p origin
        ⟨r.tables, .done r.reply, close⟩ := by
  rw [List.replicate_succ, run_cons, ← Prod.eta (T.pending.remove p.tuple.peer)]
  unfold turn Accepting.step
  cases ho : (T.pending.remove p.tuple.peer).2 with
  | none =>
    rw [Table.snd_remove] at ho
    simp [Table.remove_of_none ho, turn, Accepting.step, List.replicate_succ]
  | some origin =>
    dsimp only
    rw [run_correlate]

/-- An accept that is not disturbed is the handler of an accepted socket. -/
theorem run_accept (sidecar : Ipv4) (T : Tables S) (close : Closing) :
    (⟨T, .start sidecar p, close⟩ : Race S).run a p (.replicate 6 .accept) =
      ⟨(T.accepted sidecar p).tables, .done (T.accepted sidecar p).reply, close⟩ := by
  unfold Accepting.start Tables.accepted
  cases hi : p.isIpv4 with
  | false => simp [turn, Accepting.step, List.replicate_succ]
  | true =>
    simp only [Bool.not_true, Bool.false_eq_true, if_false]
    by_cases hs : p.tuple.peer.addr = sidecar
    · rw [if_pos hs, if_pos hs, List.replicate_succ, run_cons]
      refine (run_claim a p (T.register p).tables (T.register p).reply close).trans ?_
      split <;> simp_all
    · rw [if_neg hs, if_neg hs, List.replicate_succ', run_snoc, run_claim]
      split <;> simp_all [turn, Accepting.step]

/-- A close that is not disturbed is the handler of a closing socket. -/
theorem run_close (T : Tables S) (accept : Accepting) :
    (⟨T, accept, .start a⟩ : Race S).run a p (.replicate 3 .close) =
      ⟨(T.stateChanged a .close).tables, accept, .done (T.stateChanged a .close).reply⟩ := by
  simp only [List.replicate_succ, List.replicate_zero, run_cons, run_nil, Tables.stateChanged, Closing.start]
  cases a.isIpv4 <;> simp [turn, Closing.step]

end Race

end Splice
