import Splice.Net.Ipv4
/-!
# Endpoints and connection tuples

A tuple is one socket's view of a TCP connection: its own endpoint first, its
peer's second. The two sockets of a connection hold reversed tuples, so a tuple
names a socket and its reversal names the socket at the other end.

Endpoints are ordered by address and then by port, tuples by their own endpoint
and then by their peer's.
-/

namespace Splice

/-- An IPv4 address and a port. -/
structure Endpoint where
  addr : Ipv4
  port : UInt16
deriving DecidableEq, Inhabited, Repr

/-- The view one socket has of its connection. -/
structure Tuple where
  /-- The endpoint of the socket holding the tuple. -/
  own : Endpoint
  /-- The endpoint it is connected to. -/
  peer : Endpoint
deriving DecidableEq, Inhabited, Repr

namespace Endpoint

/-- Address and port as one number, the address leading. -/
def number (e : Endpoint) : Nat := e.addr.number * 65536 + e.port.toNat

theorem number_injective {x y : Endpoint} (h : x.number = y.number) : x = y := by
  have := x.port.toNat_lt; have := y.port.toNat_lt
  obtain ⟨xa, xp⟩ := x
  obtain ⟨ya, yp⟩ := y
  simp only [number] at *
  simp only [mk.injEq]
  exact ⟨Ipv4.number_injective (by omega), UInt16.toNat_inj.1 (by omega)⟩

instance : Ord Endpoint := ⟨compareOn number⟩

instance : Std.TransOrd Endpoint := inferInstanceAs (Std.TransCmp (compareOn number))

instance : Std.LawfulEqOrd Endpoint where
  eq_of_compare {x y} h := by
    have h : compareOn number x y = .eq := h
    rw [compareOn] at h
    exact number_injective (Std.LawfulEqOrd.eq_of_compare h)

/-- The form `a.b.c.d:port`. -/
def chars (e : Endpoint) : List Char := e.addr.chars ++ ':' :: Decimal.chars e.port.toNat

def text (e : Endpoint) : String := String.ofList e.chars

instance : ToString Endpoint := ⟨text⟩

/-- Reads the form `a.b.c.d:port`. -/
def read? (cs : List Char) : Option Endpoint :=
  match cs.splitOn ':' with
  | [addr, port] => do
    let n ← Decimal.read? port
    if n < 65536 then return ⟨← Ipv4.read? addr, .ofNat n⟩ else none
  | _ => none

end Endpoint

namespace Tuple

/-- The tuple held by the socket at the other end. -/
def reversed (t : Tuple) : Tuple := ⟨t.peer, t.own⟩

/-- Either end has the address `x`. -/
def touches (t : Tuple) (x : Ipv4) : Bool := t.own.addr == x || t.peer.addr == x

@[simp] theorem reversed_reversed (t : Tuple) : t.reversed.reversed = t := rfl

@[simp] theorem own_reversed (t : Tuple) : t.reversed.own = t.peer := rfl

@[simp] theorem peer_reversed (t : Tuple) : t.reversed.peer = t.own := rfl

instance : Ord Tuple := ⟨compareLex (compareOn own) (compareOn peer)⟩

instance : Std.TransOrd Tuple :=
  inferInstanceAs (Std.TransCmp (compareLex (compareOn own) (compareOn peer)))

instance : Std.LawfulEqOrd Tuple where
  eq_of_compare {x y} h := by
    have h : compareLex (compareOn own) (compareOn peer) x y = .eq := h
    rw [compareLex, Ordering.then_eq_eq, compareOn, compareOn] at h
    have ho : x.own = y.own := Std.LawfulEqOrd.eq_of_compare h.1
    have hp : x.peer = y.peer := Std.LawfulEqOrd.eq_of_compare h.2
    cases x; cases y; simp_all only

/-- The form `OWN -> PEER`. -/
def chars (t : Tuple) : List Char := t.own.chars ++ ' ' :: '-' :: '>' :: ' ' :: t.peer.chars

def text (t : Tuple) : String := String.ofList t.chars

instance : ToString Tuple := ⟨text⟩

/-- Reads the form `OWN -> PEER`. -/
def read? (cs : List Char) : Option Tuple :=
  match cs.splitOn ' ' with
  | [own, ['-', '>'], peer] => return ⟨← Endpoint.read? own, ← Endpoint.read? peer⟩
  | _ => none

end Tuple

end Splice
