import Std.Data.ExtTreeMap
import Splice.Net.Decimal
/-!
# IPv4 addresses

An address is its four octets. Addresses are ordered by their octets, first
octet first, which is the order of the numbers they spell in base 256.
-/

namespace Splice

/-- An IPv4 address, octet by octet as in `a.b.c.d`. -/
structure Ipv4 where
  a : UInt8
  b : UInt8
  c : UInt8
  d : UInt8
deriving DecidableEq, Inhabited, Repr

namespace Ipv4

/-- The address no socket has: 0.0.0.0. -/
def unspecified : Ipv4 := ⟨0, 0, 0, 0⟩

/-- The octets in order. -/
def octets (x : Ipv4) : List UInt8 := [x.a, x.b, x.c, x.d]

/-- The octets as one number in base 256. -/
def number (x : Ipv4) : Nat :=
  ((x.a.toNat * 256 + x.b.toNat) * 256 + x.c.toNat) * 256 + x.d.toNat

/-- The address whose number is `n` modulo 2^32. -/
def ofNumber (n : Nat) : Ipv4 :=
  ⟨.ofNat (n / 16777216), .ofNat (n / 65536), .ofNat (n / 256), .ofNat n⟩

theorem number_injective {x y : Ipv4} (h : x.number = y.number) : x = y := by
  have := x.a.toNat_lt; have := x.b.toNat_lt; have := x.c.toNat_lt; have := x.d.toNat_lt
  have := y.a.toNat_lt; have := y.b.toNat_lt; have := y.c.toNat_lt; have := y.d.toNat_lt
  simp only [number] at h
  obtain ⟨xa, xb, xc, xd⟩ := x
  obtain ⟨ya, yb, yc, yd⟩ := y
  simp only at *
  simp only [mk.injEq]
  refine ⟨?_, ?_, ?_, ?_⟩ <;> apply UInt8.toNat_inj.1 <;> omega

/-! ## Order -/

instance : Ord Ipv4 := ⟨compareOn number⟩

instance : Std.TransOrd Ipv4 := inferInstanceAs (Std.TransCmp (compareOn number))

instance : Std.LawfulEqOrd Ipv4 where
  eq_of_compare {x y} h := by
    have h : compareOn number x y = .eq := h
    rw [compareOn] at h
    exact number_injective (Std.LawfulEqOrd.eq_of_compare h)

/-! ## Text -/

/-- The dotted decimal form. -/
def chars (x : Ipv4) : List Char :=
  Decimal.chars x.a.toNat ++ '.' :: (Decimal.chars x.b.toNat ++ '.' ::
    (Decimal.chars x.c.toNat ++ '.' :: Decimal.chars x.d.toNat))

def text (x : Ipv4) : String := String.ofList x.chars

instance : ToString Ipv4 := ⟨text⟩

/-- One octet of a dotted decimal form. -/
def readOctet? (cs : List Char) : Option UInt8 :=
  (Decimal.read? cs).bind fun n => if n < 256 then some (.ofNat n) else none

/-- Reads the dotted decimal form. -/
def read? (cs : List Char) : Option Ipv4 :=
  match cs.splitOn '.' with
  | [a, b, c, d] => return ⟨← readOctet? a, ← readOctet? b, ← readOctet? c, ← readOctet? d⟩
  | _ => none

end Ipv4

end Splice
