import Mathlib.Data.List.Basic
import Splice.Net.SocketAddress
/-!
# Texts of endpoints and tuples

A numeral has digits only, so the dots of an address, the colon of an endpoint and
the arrow of a tuple stand where the printer put them and nowhere else. Cutting a
text at these marks gives its parts, each part is read back as it was written, and
no two endpoints or tuples have one text. The arrow also tells the two sides of a
tuple apart, so the text of the reversed tuple is got by exchanging them.
-/

namespace Splice

/-! ## Numerals -/

namespace Decimal

/-- A character that is no digit stands in no numeral. -/
theorem notMem_chars {c : Char} (hc : value? c = none) (n : Nat) : c ∉ chars n := by
  intro hmem
  obtain ⟨d, hd, rfl⟩ := isDigit_of_mem_chars n c hmem
  rw [value?_digit d hd] at hc
  cases hc

theorem digit_eq_digitChar : ∀ d < 10, digit d = d.digitChar := by decide

/-- The numerals are those of the standard library. -/
theorem chars_eq_toDigits (n : Nat) : chars n = Nat.toDigits 10 n := by
  induction n using chars.induct with
  | case1 n h => rw [chars, if_pos h, Nat.toDigits_of_lt_base h, digit_eq_digitChar n h]
  | case2 n h ih =>
    have hlast : n % 10 < 10 := Nat.mod_lt n (by decide)
    rw [chars, if_neg h, ih, digit_eq_digitChar _ hlast, Nat.toDigits_of_base_le (by decide) (Nat.le_of_not_lt h)]

end Decimal

/-! ## Reading back -/

/-- Characters that can be read back tell what they were written for. -/
theorem injective_of_read? {α : Type} {chars : α → List Char} {read? : List Char → Option α}
    (hread : ∀ x, read? (chars x) = some x) : Function.Injective chars := by
  intro x y h
  apply Option.some.inj
  calc some x = read? (chars x) := (hread x).symm
    _ = read? (chars y) := by rw [h]
    _ = some y := hread y

namespace Ipv4

theorem notMem_chars {c : Char} (hc : Decimal.value? c = none) (hdot : c ≠ '.') (x : Ipv4) : c ∉ x.chars := by
  simp only [chars, List.mem_append, List.mem_cons, Decimal.notMem_chars hc, hdot, or_self, not_false_iff]

theorem splitOn_chars (x : Ipv4) : x.chars.splitOn '.' =
    [Decimal.chars x.a.toNat, Decimal.chars x.b.toNat, Decimal.chars x.c.toNat, Decimal.chars x.d.toNat] := by
  have hdot : ∀ n, '.' ∉ Decimal.chars n := Decimal.notMem_chars rfl
  simp only [chars, List.splitOn_append_cons_self_of_not_mem (hdot _), List.splitOn_eq_singleton (hdot _)]

theorem readOctet?_chars (x : UInt8) : readOctet? (Decimal.chars x.toNat) = some x := by
  rw [readOctet?, Decimal.read?_chars, Option.bind_some, if_pos x.toNat_lt, UInt8.ofNat_toNat]

theorem read?_chars (x : Ipv4) : read? x.chars = some x := by
  rw [read?, splitOn_chars]
  simp only [readOctet?_chars]
  rfl

end Ipv4

namespace Endpoint

theorem notMem_chars {c : Char} (hc : Decimal.value? c = none) (hdot : c ≠ '.') (hcolon : c ≠ ':') (e : Endpoint) :
    c ∉ e.chars := by
  simp only [chars, List.mem_append, List.mem_cons, Decimal.notMem_chars hc, Ipv4.notMem_chars hc hdot, hcolon,
    or_self, not_false_iff]

theorem splitOn_chars (e : Endpoint) : e.chars.splitOn ':' = [e.addr.chars, Decimal.chars e.port.toNat] := by
  have haddr : ':' ∉ e.addr.chars := Ipv4.notMem_chars rfl (by decide) e.addr
  have hport : ':' ∉ Decimal.chars e.port.toNat := Decimal.notMem_chars rfl _
  rw [chars, List.splitOn_append_cons_self_of_not_mem haddr, List.splitOn_eq_singleton hport]

theorem read?_chars (e : Endpoint) : read? e.chars = some e := by
  rw [read?, splitOn_chars]
  simp only [Decimal.read?_chars, Ipv4.read?_chars, Option.bind_eq_bind, Option.bind_some, if_pos e.port.toNat_lt,
    UInt16.ofNat_toNat]
  rfl

theorem chars_injective : Function.Injective chars := injective_of_read? read?_chars

theorem text_injective : Function.Injective text := fun _ _ h => chars_injective (String.ofList_injective h)

theorem text_socketAddress (e : Endpoint) : e.socketAddress.text = e.text := by
  apply String.toList_inj.1
  simp only [SocketAddress.text, socketAddress, Ipv4.octets, List.map_cons, List.map_nil, String.intercalate_cons_cons,
    String.intercalate_singleton, String.toList_append, Nat.toList_repr, ← Decimal.chars_eq_toDigits]
  simp only [text, chars, Ipv4.chars, String.toList_ofList, List.append_assoc, List.cons_append]
  rfl

end Endpoint

namespace Tuple

theorem notMem_chars {c : Char} (hc : Decimal.value? c = none) (hmark : c ∉ ['.', ':', ' ', '-', '>']) (t : Tuple) :
    c ∉ t.chars := by
  simp only [List.mem_cons, List.not_mem_nil, or_false, not_or] at hmark
  obtain ⟨hdot, hcolon, hblank, hdash, hhead⟩ := hmark
  simp only [chars, List.mem_append, List.mem_cons, Endpoint.notMem_chars hc hdot hcolon, hblank, hdash, hhead,
    or_self, not_false_iff]

theorem splitOn_chars (t : Tuple) : t.chars.splitOn ' ' = [t.own.chars, ['-', '>'], t.peer.chars] := by
  have hblank : ∀ e : Endpoint, ' ' ∉ e.chars := Endpoint.notMem_chars rfl (by decide) (by decide)
  have harrow : ' ' ∉ ['-', '>'] := by decide
  calc t.chars.splitOn ' ' = (t.own.chars ++ ' ' :: (['-', '>'] ++ ' ' :: t.peer.chars)).splitOn ' ' := rfl
    _ = [t.own.chars, ['-', '>'], t.peer.chars] := by
      rw [List.splitOn_append_cons_self_of_not_mem (hblank _), List.splitOn_append_cons_self_of_not_mem harrow,
        List.splitOn_eq_singleton (hblank _)]

theorem read?_chars (t : Tuple) : read? t.chars = some t := by
  rw [read?, splitOn_chars]
  simp only [Endpoint.read?_chars]
  rfl

theorem chars_injective : Function.Injective chars := injective_of_read? read?_chars

theorem text_injective : Function.Injective text := fun _ _ h => chars_injective (String.ofList_injective h)

theorem text_eq_sides (t : Tuple) : t.text = t.own.text ++ " -> " ++ t.peer.text := by
  apply String.toList_inj.1
  simp only [text, chars, Endpoint.text, String.toList_append, String.toList_ofList, List.append_assoc]
  rfl

example : (⟨⟨⟨10, 0, 0, 5⟩, 40000⟩, ⟨⟨10, 0, 0, 9⟩, 8080⟩⟩ : Tuple).text = "10.0.0.5:40000 -> 10.0.0.9:8080" := by cbv

theorem text_eq_append_iff (t : Tuple) (a b : String) :
    t.text = a ++ " -> " ++ b ↔ a = t.own.text ∧ b = t.peer.text := by
  constructor
  · intro h
    -- Any text may stand for `a` and `b`: that there is one dash only comes from the tuple's side.
    have hdash : ∀ e : Endpoint, '-' ∉ e.chars := Endpoint.notMem_chars rfl (by decide) (by decide)
    have hown : '-' ∉ t.own.chars ++ [' '] := by simp [hdash]
    have hpeer : '-' ∉ '>' :: ' ' :: t.peer.chars := by simp [hdash]
    have hchars : t.own.chars ++ [' '] ++ '-' :: '>' :: ' ' :: t.peer.chars =
        a.toList ++ [' '] ++ '-' :: '>' :: ' ' :: b.toList := by
      simpa [text, chars] using congrArg String.toList h
    obtain ⟨ha, -, hb⟩ := (List.append_cons_inj_of_notMem hown hpeer).1 hchars
    constructor
    · apply String.toList_inj.1
      simpa [Endpoint.text] using ha.symm
    · apply String.toList_inj.1
      simpa [Endpoint.text] using hb.symm
  · rintro ⟨rfl, rfl⟩
    exact t.text_eq_sides

end Tuple

end Splice
