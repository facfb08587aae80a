import Splice.Proofs.Origins
/-!
# How long an origin is pending

An origin is kept under the own endpoint of the socket that left it, and a close
removes what is kept under the closing socket's endpoint, whoever left it. Where
two sockets share an endpoint the origin of the first does not outlive the second.
In an orderly history nothing else ends an origin that no accept has claimed and
whose own socket is open.
-/

namespace Splice

variable {S : Type}

/-- A socket that speaks IPv4 is accepted from the endpoint `l`. -/
def Event.AcceptsFrom (l : Endpoint) : Event S → Prop
  | .accepted s => s.isIpv4 = true ∧ s.tuple.peer = l
  | _ => False

instance (l : Endpoint) : DecidablePred (Event.AcceptsFrom l : Event S → Prop)
  | .accepted s => inferInstanceAs (Decidable (s.isIpv4 = true ∧ s.tuple.peer = l))
  | .connected _ | .stateChanged _ _ | .message _ | .egress _ => isFalse id

namespace Moment

variable {m : Moment S} {l : Endpoint} {initiator acceptor : Tuple}

theorem Claims.acceptsFrom (h : m.Claims initiator acceptor) : m.event.AcceptsFrom acceptor.peer := by
  unfold Claims at h
  split at h
  · rename_i s he
    rw [he]
    exact ⟨h.1, congrArg Tuple.peer h.2.1⟩
  · exact h.elim

/-- Without an accept from `l`, only a close at `l` ends the origin pending there. -/
theorem releases_iff_closes (ha : ¬m.event.AcceptsFrom l) : m.Releases l ↔ ∃ t, m.event.Closes t ∧ t.own = l := by
  constructor
  · rintro (⟨i, a, hc, rfl⟩ | hc)
    · exact absurd hc.acceptsFrom ha
    · exact hc
  · exact .inr

end Moment

section Runs
variable (sidecar : Ipv4) (capacity : Nat) {pre post : List (Event S)} {e : Event S} {l r : Endpoint}

/-- In an orderly history, an origin that no accept has come for and whose own
socket has not closed is still pending exactly if no socket at its endpoint has
closed at all. -/
theorem origin_pending_iff_no_close_at_endpoint (h : Orderly (pre ++ e :: post))
    (hrecords : (⟨(Bypass.empty sidecar capacity).run pre, e⟩ : Moment S).Records ⟨l, r⟩)
    (haccepts : ∀ f ∈ post, ¬f.AcceptsFrom l) (hcloses : ∀ f ∈ post, ¬f.Closes ⟨l, r⟩) :
    ((Bypass.empty sidecar capacity).run (pre ++ e :: post)).tables.pending.get? l = some r ↔
      ∀ f ∈ post, ∀ t, f.Closes t → t.own ≠ l := by
  induction post using List.reverseRecOn with
  | nil =>
    rw [Bypass.after_run]
    exact iff_of_true (Moment.after_pending.2 (.inl hrecords)) (by simp)
  | append_singleton post f ih =>
    rw [← List.cons_append, ← List.append_assoc] at h ⊢
    obtain ⟨haccepts, hf⟩ := List.forall_mem_append.1 haccepts
    obtain ⟨hcloses, -⟩ := List.forall_mem_append.1 hcloses
    obtain ⟨horderly, hestablishes⟩ := orderly_snoc.1 h
    have hopen : Open (pre ++ e :: post) ⟨l, r⟩ := ⟨pre, e, post, rfl, hrecords.establishes, hcloses⟩
    -- The socket is open, so its origin is not recorded a second time.
    have hnot : ¬(⟨(Bypass.empty sidecar capacity).run (pre ++ e :: post), f⟩ : Moment S).Records ⟨l, r⟩ :=
      fun hr => hestablishes _ hr.establishes hopen
    rw [Bypass.after_run, Moment.after_pending, Moment.releases_iff_closes (hf f (by simp)), or_iff_right hnot,
      List.forall_mem_append, List.forall_mem_singleton, and_comm]
    refine and_congr (ih horderly haccepts hcloses) ?_
    simp

end Runs

/-! ## Two sockets at one endpoint -/

namespace SharedEndpoint

def first : Tuple := ⟨⟨⟨10, 0, 0, 5⟩, 40000⟩, ⟨⟨10, 0, 0, 9⟩, 8080⟩⟩

def second : Tuple := ⟨first.own, ⟨⟨10, 0, 0, 7⟩, 9090⟩⟩

def elsewhere : Tuple := ⟨⟨⟨10, 0, 0, 5⟩, 40001⟩, second.peer⟩

def connects (t : Tuple) (handle : Nat) : Event Nat := .connected ⟨.inet, t, handle⟩

def closes (t : Tuple) (handle : Nat) : Event Nat := .stateChanged ⟨.inet, t, handle⟩ .close

/-- A second socket connects from the endpoint of the first, and closes again. -/
def neighbour : List (Event Nat) := [connects second 2, closes second 2]

/-- A second socket connects from the endpoint of the first, and one elsewhere closes. -/
def bystander : List (Event Nat) := [connects second 2, connects elsewhere 3, closes elsewhere 3]

end SharedEndpoint

open SharedEndpoint in
/-- The close of the second socket takes the origin of the first, which is open. -/
theorem neighbour_close_drops_origin :
    let start : Bypass Nat := Bypass.empty defaultSidecar 4
    Orderly (connects first 1 :: neighbour) ∧ (⟨start, connects first 1⟩ : Moment Nat).Records first ∧
      (∀ f ∈ neighbour, ¬f.AcceptsFrom first.own) ∧ (∀ f ∈ neighbour, ¬f.Closes first) ∧
      (start.run (connects first 1 :: neighbour)).tables.pending.get? first.own ≠ some first.peer :=
  ⟨by decide +kernel, by decide +kernel, by decide, by decide, by decide +kernel⟩

open SharedEndpoint in
/-- A close elsewhere leaves it. -/
theorem origin_pending_beside_bystander :
    let start : Bypass Nat := Bypass.empty defaultSidecar 4
    Orderly (connects first 1 :: bystander) ∧ (⟨start, connects first 1⟩ : Moment Nat).Records first ∧
      (∀ f ∈ bystander, ¬f.AcceptsFrom first.own) ∧ (∀ f ∈ bystander, ¬f.Closes first) ∧
      (start.run (connects first 1 :: bystander)).tables.pending.get? first.own = some first.peer := by
  intro start
  have horderly : Orderly ([] ++ connects first 1 :: bystander) := by decide +kernel
  have hrecords : (⟨start, connects first 1⟩ : Moment Nat).Records first := by decide +kernel
  have haccepts : ∀ f ∈ bystander, ¬f.AcceptsFrom first.own := by decide
  have hcloses : ∀ f ∈ bystander, ¬f.Closes first := by decide
  refine ⟨horderly, hrecords, haccepts, hcloses, ?_⟩
  apply (origin_pending_iff_no_close_at_endpoint defaultSidecar 4 horderly hrecords haccepts hcloses).2
  simp [bystander, connects, closes, Event.Closes, elsewhere]

end Splice
