import Splice.Kernel.Maps
/-!
# The lifecycle program

Runs on events of TCP sockets. Like the handlers of `Splice.Tracker` it records
pending origins, pairs sockets and registers them, on map words: ports come as
the context holds them, the remote one in network order. Inserts are tried and
their failure is ignored.
-/

namespace Splice.Kernel

/-- The address family of IPv4 sockets. -/
def familyInet : UInt32 := 2
/-- The event of a socket that has connected. -/
def opConnected : UInt32 := 4
/-- The event of a socket that has been accepted. -/
def opAccepted : UInt32 := 5
/-- The event of a change of state. -/
def opState : UInt32 := 10
/-- The closed state. -/
def tcpClose : UInt32 := 7
/-- The flag that asks for events of state changes. -/
def stateEvents : UInt32 := 4

/-- What the kernel tells a lifecycle program about a socket. -/
structure SocketContext (S : Type) where
  op : UInt32
  family : UInt32
  localIp4 : UInt32
  remoteIp4 : UInt32
  /-- In host order. -/
  localPort : UInt32
  /-- In network order. -/
  remotePort : UInt32
  /-- Second argument of the event: the new state. -/
  argument : UInt32
  socket : S

namespace SocketContext

variable {S : Type}

/-- The socket's tuple as a map key. -/
def key (c : SocketContext S) : RawTuple :=
  ⟨⟨c.localIp4, c.localPort⟩, ⟨c.remoteIp4, swapOctets c.remotePort⟩⟩

def isIpv4 (c : SocketContext S) : Bool := c.family == familyInet || c.remoteIp4 != 0

end SocketContext

namespace Maps

variable {S : Type}

/-- Makes the socket of `key` a target of redirection. -/
def register (m : Maps S) (key : RawTuple) (socket : S) : Maps S :=
  { m with redirect := putRow m.limit m.redirect key socket }

/-- The socket has connected. -/
def connected (m : Maps S) (key : RawTuple) (socket : S) : Maps S :=
  if key.own.ip4 = sidecarWord then m.register key socket
  else if key.own.ip4 = key.peer.ip4 then m
  else { m with pending := addRow m.limit m.pending key.own key.peer }.register key socket

/-- Writes both rows of a pair, each try on its own. -/
def pair (m : Maps S) (initiator acceptor : RawTuple) : Maps S :=
  let proxy := putRow m.limit m.proxy initiator ⟨acceptor, ProxyState.init.flag⟩
  { m with proxy := putRow m.limit proxy acceptor ⟨initiator, ProxyState.init.flag⟩ }

/-- The socket has been accepted. Its peer's pending origin is read first and
removed last. -/
def accepted (m : Maps S) (key : RawTuple) (socket : S) : Maps S :=
  let m := if key.peer.ip4 = sidecarWord then m.register key socket else m
  match m.pending[key.peer]? with
  | none => m
  | some origin =>
    let m := (m.pair ⟨key.peer, origin⟩ key).register key socket
    { m with pending := m.pending.erase key.peer }

/-- The socket has closed. The kernel itself drops it from the redirect map. -/
def closed (m : Maps S) (key : RawTuple) : Maps S :=
  { m with proxy := m.proxy.erase key, pending := m.pending.erase key.own }

/-- The kernel drops a dead socket from the redirect map. -/
def socketDied (m : Maps S) (key : RawTuple) : Maps S := { m with redirect := m.redirect.erase key }

/-- The maps after a lifecycle event of an IPv4 socket. -/
def track (m : Maps S) (c : SocketContext S) : Maps S :=
  if c.op = opConnected then m.connected c.key c.socket
  else if c.op = opAccepted then m.accepted c.key c.socket
  else if c.op = opState ∧ c.argument = tcpClose then m.closed c.key
  else m

end Maps

/-- The lifecycle program. -/
def sockOps {S : Type} (m : Maps S) (c : SocketContext S) : Outcome S :=
  if c.isIpv4 then { maps := m.track c, value := 0, socketFlags := stateEvents }
  else { maps := m, value := 0 }

end Splice.Kernel
