import Splice.Kernel.Classifier
import Splice.Proofs.Programs
import Splice.Proofs.Since
/-!
# Calls of the kernel programs

A `Call` is one run of a program, or one thing done to the maps from outside: the
kernel drops a dead socket, an operator turns tracing on or off, a limit changes.
A `Moment` is a call together with the maps that meet it. The predicates on calls
and moments say in the words of the lifecycle what happened there.
-/

namespace Splice.Kernel

variable {S : Type}

/-! ## Calls -/

/-- One thing that happens to the maps. -/
inductive Call (S : Type) where
  | lifecycle (c : SocketContext S)
  | message (c : MessageContext)
  | egress (frame : Octets)
  | socketDied (key : RawTuple)
  | setTracing (on : Bool)
  | setLimit (limit : Nat)

/-- What the lifecycle program is told of an IPv4 socket with the tuple `k`. -/
def SocketContext.inet (op : UInt32) (k : RawTuple) (argument : UInt32) (socket : S) : SocketContext S where
  op := op
  family := familyInet
  localIp4 := k.own.ip4
  remoteIp4 := k.peer.ip4
  localPort := k.own.port
  remotePort := swapOctets k.peer.port
  argument := argument
  socket := socket

namespace Call

/-- The lifecycle program runs for a socket that speaks IPv4. -/
def Meets (c : Call S) (P : SocketContext S → Prop) : Prop :=
  match c with
  | .lifecycle c => c.isIpv4 = true ∧ P c
  | _ => False

/-- The socket of `k` has connected. -/
def Connects (k : RawTuple) (c : Call S) : Prop := c.Meets fun c => c.op = opConnected ∧ c.key = k

/-- The socket of `k` has been accepted. -/
def Accepts (k : RawTuple) (c : Call S) : Prop := c.Meets fun c => c.op = opAccepted ∧ c.key = k

/-- The socket of `k` has closed. -/
def Closes (k : RawTuple) (c : Call S) : Prop :=
  c.Meets fun c => (c.op = opState ∧ c.argument = tcpClose) ∧ c.key = k

end Call

/-- What a call does. -/
def Maps.call (m : Maps S) : Call S → Outcome S
  | .lifecycle c => sockOps m c
  | .message c => redirectMessage m c
  | .egress frame => classify m frame
  | .socketDied key => { maps := m.socketDied key, value := 0 }
  | .setTracing on => { maps := m.setTracing on, value := 0 }
  | .setLimit limit => { maps := { m with limit := limit }, value := 0 }

/-! ## Moments -/

/-- A call and the maps that meet it. -/
structure Moment (S : Type) where
  before : Maps S
  call : Call S

namespace Moment

/-- The socket of `acceptor` has been accepted and finds the origin that the
socket of `initiator` left pending. -/
def Joins (x : Moment S) (initiator acceptor : RawTuple) : Prop :=
  x.call.Accepts acceptor ∧ initiator.own = acceptor.peer ∧
    x.before.pending[acceptor.peer]? = some initiator.peer

/-- The socket of `k` is paired with that of `p`, in either role. -/
def Pairs (x : Moment S) (k p : RawTuple) : Prop := x.Joins k p ∨ x.Joins p k

end Moment

namespace Maps

/-- The maps after some calls, the earliest first. -/
def callAll (m : Maps S) (cs : List (Call S)) : Maps S := cs.foldl (fun m c => (m.call c).maps) m

/-- The moments of some calls. -/
def moments (m : Maps S) : List (Call S) → List (Moment S)
  | [] => []
  | c :: cs => ⟨m, c⟩ :: (m.call c).maps.moments cs

theorem callAll_snoc (m : Maps S) (cs : List (Call S)) (c : Call S) :
    m.callAll (cs ++ [c]) = ((m.callAll cs).call c).maps := by
  simp [callAll]

theorem moments_snoc (m : Maps S) (cs : List (Call S)) (c : Call S) :
    m.moments (cs ++ [c]) = m.moments cs ++ [⟨m.callAll cs, c⟩] := by
  induction cs generalizing m with
  | nil => rfl
  | cons d cs ih => simp only [List.cons_append, moments, ih, callAll, List.foldl_cons]

end Maps

end Splice.Kernel
