import Splice.Net.Tuple
/-!
# Socket addresses

The socket interface of a system has its own name for an endpoint. Its text is the
one all systems share: the octets of the address in decimal with dots between them,
then a colon and the port.
-/

namespace Splice

/-- An endpoint as the socket interface names it. -/
structure SocketAddress where
  ip : Ipv4
  port : UInt16
deriving DecidableEq, Inhabited, Repr

def Endpoint.socketAddress (e : Endpoint) : SocketAddress := ⟨e.addr, e.port⟩

namespace SocketAddress

def endpoint (s : SocketAddress) : Endpoint := ⟨s.ip, s.port⟩

def text (s : SocketAddress) : String :=
  ".".intercalate (s.ip.octets.map fun x => Nat.repr x.toNat) ++ ":" ++ Nat.repr s.port.toNat

instance : ToString SocketAddress := ⟨text⟩

@[simp] theorem endpoint_socketAddress (s : SocketAddress) : s.endpoint.socketAddress = s := rfl

end SocketAddress

@[simp] theorem Endpoint.socketAddress_endpoint (e : Endpoint) : e.socketAddress.endpoint = e := rfl

end Splice
