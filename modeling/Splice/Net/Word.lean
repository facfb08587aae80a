import Splice.Net.Tuple
/-!
# Endpoints and tuples as kernel map words

The kernel maps key their rows by 32-bit words. An address is its four octets
in network order, read as a little-endian word; a port is a number in host
order that leaves the upper half of its word zero. `Endpoint.raw` and
`RawEndpoint.endpoint` convert; a word whose upper half is not zero loses it.
-/

namespace Splice

/-! ## Words and their octets -/

/-- The word whose octets are `a`, `b`, `c`, `d`, least significant first. -/
def wordOfOctets (a b c d : UInt8) : UInt32 :=
  .ofNat (a.toNat + b.toNat * 256 + c.toNat * 65536 + d.toNat * 16777216)

namespace Ipv4

/-- The address as the kernel maps hold it. -/
def word (x : Ipv4) : UInt32 := wordOfOctets x.a x.b x.c x.d

/-- The address a kernel map word stands for. -/
def ofWord (w : UInt32) : Ipv4 :=
  ⟨.ofNat w.toNat, .ofNat (w.toNat / 256), .ofNat (w.toNat / 65536), .ofNat (w.toNat / 16777216)⟩

theorem toNat_word (x : Ipv4) :
    x.word.toNat = x.a.toNat + x.b.toNat * 256 + x.c.toNat * 65536 + x.d.toNat * 16777216 := by
  have := x.a.toNat_lt; have := x.b.toNat_lt; have := x.c.toNat_lt; have := x.d.toNat_lt
  simp only [word, wordOfOctets, UInt32.toNat_ofNat']
  omega

theorem ofWord_word (x : Ipv4) : ofWord x.word = x := by
  have := x.a.toNat_lt; have := x.b.toNat_lt; have := x.c.toNat_lt; have := x.d.toNat_lt
  have h := x.toNat_word
  obtain ⟨a, b, c, d⟩ := x
  simp only [ofWord, mk.injEq] at *
  refine ⟨?_, ?_, ?_, ?_⟩ <;> apply UInt8.toNat_inj.1 <;> rw [UInt8.toNat_ofNat'] <;> omega

theorem word_ofWord (w : UInt32) : (ofWord w).word = w := by
  have := w.toNat_lt
  apply UInt32.toNat_inj.1
  rw [toNat_word]
  simp only [ofWord, UInt8.toNat_ofNat']
  omega

end Ipv4

/-- The 32-bit word with the octets of `w` in the opposite order. -/
def swapOctets (w : UInt32) : UInt32 :=
  wordOfOctets (.ofNat (w.toNat / 16777216)) (.ofNat (w.toNat / 65536)) (.ofNat (w.toNat / 256))
    (.ofNat w.toNat)

/-- The octets of a word, least significant first. -/
def wordOctets (w : UInt32) : List UInt8 := (Ipv4.ofWord w).octets

/-- The words spelled by a run of octets, four at a time; a rest of fewer than
four octets is dropped. -/
def wordsOfOctets : List UInt8 → List UInt32
  | a :: b :: c :: d :: rest => wordOfOctets a b c d :: wordsOfOctets rest
  | _ => []

/-! ## Endpoints -/

/-- An endpoint as a kernel map holds it. -/
structure RawEndpoint where
  /-- The address, its octets least significant first. -/
  ip4 : UInt32
  /-- The port, in the lower half. -/
  port : UInt32
deriving DecidableEq, Inhabited, Repr

/-- A tuple as a kernel map holds it. -/
structure RawTuple where
  own : RawEndpoint
  peer : RawEndpoint
deriving DecidableEq, Inhabited, Repr

/-- The stored form of an endpoint. -/
def Endpoint.raw (e : Endpoint) : RawEndpoint := ⟨e.addr.word, .ofNat e.port.toNat⟩

namespace RawEndpoint

/-- The endpoint a stored form stands for; the upper half of the port is lost. -/
def endpoint (r : RawEndpoint) : Endpoint := ⟨Ipv4.ofWord r.ip4, .ofNat r.port.toNat⟩

/-- Number of octets of a stored endpoint. -/
def size : Nat := 8

def octets (r : RawEndpoint) : List UInt8 := wordOctets r.ip4 ++ wordOctets r.port

/-- Address and port, the port with all its bits. -/
def text (r : RawEndpoint) : String := (Ipv4.ofWord r.ip4).text ++ ":" ++ Decimal.text r.port.toNat

instance : Ord RawEndpoint := ⟨compareLex (compareOn ip4) (compareOn port)⟩

instance : Std.TransOrd RawEndpoint :=
  inferInstanceAs (Std.TransCmp (compareLex (compareOn ip4) (compareOn port)))

instance : Std.LawfulEqOrd RawEndpoint where
  eq_of_compare {x y} h := by
    have h : compareLex (compareOn ip4) (compareOn port) x y = .eq := h
    rw [compareLex, Ordering.then_eq_eq, compareOn, compareOn] at h
    have hi : x.ip4 = y.ip4 := Std.LawfulEqOrd.eq_of_compare h.1
    have hp : x.port = y.port := Std.LawfulEqOrd.eq_of_compare h.2
    cases x; cases y; simp_all only

end RawEndpoint

/-! ## Tuples -/

/-- The stored form of a tuple. -/
def Tuple.raw (t : Tuple) : RawTuple := ⟨t.own.raw, t.peer.raw⟩

namespace RawTuple

/-- The tuple a stored form stands for. -/
def tuple (r : RawTuple) : Tuple := ⟨r.own.endpoint, r.peer.endpoint⟩

/-- The stored tuple of the socket at the other end; no bit is lost. -/
def reversed (r : RawTuple) : RawTuple := ⟨r.peer, r.own⟩

/-- Number of octets of a stored tuple. -/
def size : Nat := 16

def octets (r : RawTuple) : List UInt8 := r.own.octets ++ r.peer.octets

/-- Both endpoints, the ports with all their bits. -/
def text (r : RawTuple) : String := r.own.text ++ " -> " ++ r.peer.text

instance : Ord RawTuple := ⟨compareLex (compareOn own) (compareOn peer)⟩

instance : Std.TransOrd RawTuple :=
  inferInstanceAs (Std.TransCmp (compareLex (compareOn own) (compareOn peer)))

instance : Std.LawfulEqOrd RawTuple where
  eq_of_compare {x y} h := by
    have h : compareLex (compareOn own) (compareOn peer) x y = .eq := h
    rw [compareLex, Ordering.then_eq_eq, compareOn, compareOn] at h
    have ho : x.own = y.own := Std.LawfulEqOrd.eq_of_compare h.1
    have hp : x.peer = y.peer := Std.LawfulEqOrd.eq_of_compare h.2
    cases x; cases y; simp_all only

end RawTuple

end Splice
