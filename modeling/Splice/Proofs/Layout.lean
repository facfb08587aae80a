import Splice.Frame
/-!
# Where a frame's fields stand

The decoder cuts a frame into a network packet and a TCP segment and reads each
from its own start. Here the same fields are named by their offset in the whole
frame: the network header stands behind at most two tags, the segment behind as
many octets as that header says. `Frame.tuple?_eq_ok_iff` says for which fields
a frame has a tuple, and which.
-/

namespace Splice

/-! ## Reading a piece -/

namespace Octets

variable (b : Octets) {n i : Nat}

@[simp] theorem at8_drop (o i : Nat) : at8 (b.drop o) i = b.at8 (o + i) := by
  simp [at8]

@[simp] theorem be16_drop (o i : Nat) : be16 (b.drop o) i = b.be16 (o + i) := by
  simp only [be16, at8_drop, Nat.add_assoc]

@[simp] theorem high4_drop (o i : Nat) : high4 (b.drop o) i = b.high4 (o + i) := by
  simp only [high4, at8_drop]

@[simp] theorem low4_drop (o i : Nat) : low4 (b.drop o) i = b.low4 (o + i) := by
  simp only [low4, at8_drop]

@[simp] theorem addressAt_drop (o i : Nat) :
    Ipv4Header.addressAt (b.drop o) i = Ipv4Header.addressAt b (o + i) := by
  simp only [Ipv4Header.addressAt, at8_drop, Nat.add_assoc]

theorem toNat_be16 : (b.be16 i).toNat = (b.at8 i).toNat * 256 + (b.at8 (i + 1)).toNat := by
  have := (b.at8 i).toNat_lt; have := (b.at8 (i + 1)).toNat_lt
  rw [be16, UInt16.toNat_ofNat']
  omega

theorem at8_take (h : i < n) : at8 (b.take n) i = b.at8 i := by
  simp [at8, List.getD_eq_getElem?_getD, List.getElem?_take_of_lt h]

theorem be16_take (h : i + 1 < n) : be16 (b.take n) i = b.be16 i := by
  simp only [be16, at8_take b h, at8_take b (Nat.lt_of_succ_lt h)]

theorem high4_take (h : i < n) : high4 (b.take n) i = b.high4 i := by
  simp only [high4, at8_take b h]

theorem low4_take (h : i < n) : low4 (b.take n) i = b.low4 i := by
  simp only [low4, at8_take b h]

theorem addressAt_take (h : i + 3 < n) : Ipv4Header.addressAt (b.take n) i = Ipv4Header.addressAt b i := by
  have h2 : i + 2 < n := Nat.lt_of_succ_lt h
  have h1 : i + 1 < n := Nat.lt_of_succ_lt h2
  simp only [Ipv4Header.addressAt, at8_take b h, at8_take b h2, at8_take b h1, at8_take b (Nat.lt_of_succ_lt h1)]

section Append
variable {b} (s : Octets)

theorem at8_append_left (h : i < b.length) : at8 (b ++ s) i = b.at8 i := by
  rw [← at8_take (b ++ s) h, List.take_left]

theorem be16_append_left (h : i + 1 < b.length) : be16 (b ++ s) i = b.be16 i := by
  rw [← be16_take (b ++ s) h, List.take_left]

theorem isVlan_append_left (h : i + 1 < b.length) : isVlan (be16 (b ++ s) i) = isVlan (b.be16 i) := by
  rw [be16_append_left s h]

theorem high4_append_left (h : i < b.length) : high4 (b ++ s) i = b.high4 i := by
  rw [← high4_take (b ++ s) h, List.take_left]

theorem low4_append_left (h : i < b.length) : low4 (b ++ s) i = b.low4 i := by
  rw [← low4_take (b ++ s) h, List.take_left]

theorem addressAt_append_left (h : i + 3 < b.length) :
    Ipv4Header.addressAt (b ++ s) i = Ipv4Header.addressAt b i := by
  rw [← addressAt_take (b ++ s) h, List.take_left]

end Append

end Octets

/-! ## Checks -/

section Checks

variable {α : Type} {x : α} {e : DecodeError}

theorem bind_eq_ok {β : Type} {r : Except DecodeError β} {f : β → Except DecodeError α} :
    (r >>= f) = .ok x ↔ ∃ y, r = .ok y ∧ f y = .ok x := by
  constructor
  · intro h
    cases r with
    | error e => cases h
    | ok y => exact ⟨y, rfl, h⟩
  · rintro ⟨y, rfl, h⟩
    exact h

/-- What follows a length check is reached when the check holds. -/
theorem Octets.require_bind_eq_ok (b : Octets) {layer : Layer} {n : Nat} {f : Unit → Except DecodeError α} :
    (b.require layer n >>= f) = .ok x ↔ n ≤ b.length ∧ f () = .ok x := by
  rw [bind_eq_ok, require]
  constructor
  · rintro ⟨⟨⟩, hr, h⟩
    split at hr
    · rename_i hn
      exact ⟨hn, h⟩
    · cases hr
  · rintro ⟨hn, h⟩
    exact ⟨(), if_pos hn, h⟩

/-- What follows a refusal is reached when there is no ground for it. -/
theorem refuse_eq_ok {p : Prop} [Decidable p] {r : Except DecodeError α} :
    (if p then .error e else r) = .ok x ↔ ¬p ∧ r = .ok x := by
  by_cases hp : p <;> simp [hp]

theorem bind_eq_error {β : Type} {r : Except DecodeError β} {f : β → Except DecodeError α} :
    (r >>= f) = .error e ↔ r = .error e ∨ ∃ y, r = .ok y ∧ f y = .error e := by
  cases r with
  | error e' => simp [bind, Except.bind]
  | ok y => simp [bind, Except.bind]

theorem Octets.require_bind_eq_error (b : Octets) {layer : Layer} {n : Nat} {f : Unit → Except DecodeError α} :
    (b.require layer n >>= f) = .error e ↔
      b.length < n ∧ .truncated layer n b.length = e ∨ n ≤ b.length ∧ f () = .error e := by
  rw [require]
  by_cases h : n ≤ b.length
  · simp [h, Nat.not_lt_of_le h, bind, Except.bind]
  · simp [h, Nat.lt_of_not_le h, bind, Except.bind]

theorem refuse_eq_error {p : Prop} [Decidable p] {e' : DecodeError} {r : Except DecodeError α} :
    (if p then .error e' else r) = .error e ↔ p ∧ e' = e ∨ ¬p ∧ r = .error e := by
  by_cases hp : p <;> simp [hp]

end Checks

namespace Octets

variable (b : Octets)

/-! ## Offsets and fields -/

/-- How many VLAN tags are read. -/
def tagCount : Nat := if isVlan (b.be16 12) then if isVlan (b.be16 16) then 2 else 1 else 0

/-- Offset of the network header. -/
def networkOffset : Nat := ethernetLength + vlanLength * b.tagCount

theorem networkOffset_of_plain {b : Octets} (h : isVlan (b.be16 12) = false) : b.networkOffset = 14 := by
  rw [networkOffset, tagCount, h]
  rfl

theorem networkOffset_of_tag {b : Octets} (h : isVlan (b.be16 12) = true) (h' : isVlan (b.be16 16) = false) :
    b.networkOffset = 18 := by
  rw [networkOffset, tagCount, h, h']
  rfl

theorem networkOffset_of_tags {b : Octets} (h : isVlan (b.be16 12) = true) (h' : isVlan (b.be16 16) = true) :
    b.networkOffset = 22 := by
  rw [networkOffset, tagCount, h, h']
  rfl

/-- Length of the network header, as it says itself. -/
def internetLength : Nat := b.low4 b.networkOffset * 4

/-- Offset of the TCP segment. -/
def segmentOffset : Nat := b.networkOffset + b.internetLength

/-- The tuple the fields spell. -/
def tuple : Tuple :=
  ⟨⟨Ipv4Header.addressAt b (b.networkOffset + 12), b.be16 b.segmentOffset⟩,
    ⟨Ipv4Header.addressAt b (b.networkOffset + 16), b.be16 (b.segmentOffset + 2)⟩⟩

/-- The headers announce a TCP segment behind a whole IPv4 header. -/
structure Announces : Prop where
  etherType : b.be16 (b.networkOffset - 2) = etherIpv4
  internetLength : ipv4MinLength ≤ b.internetLength
  fragment : (b.be16 (b.networkOffset + 6)).toNat % 0x2000 = 0
  protocol : b.at8 (b.networkOffset + 9) = protocolTcp

/-- The IP version is 4, and a whole TCP header is there that says so. -/
structure Complete : Prop where
  version : b.high4 b.networkOffset = 4
  length : b.segmentOffset + tcpMinLength ≤ b.length
  dataOffset : 5 ≤ b.high4 (b.segmentOffset + 12)

end Octets

/-! ## The three headers -/

namespace EthernetHeader

variable {frame : Octets} {h r : EthernetHeader}

theorem skipTags_succ_eq_ok {n : Nat} (ht : isVlan h.etherType = true) :
    skipTags frame (n + 1) h = .ok r ↔ h.length + vlanLength ≤ frame.length ∧
      skipTags frame n ⟨frame.be16 (h.length + 2), h.tags + 1, h.length + vlanLength⟩ = .ok r := by
  simp only [skipTags, if_pos ht, Octets.require_bind_eq_ok, List.length_drop, Octets.be16_drop]
  have : vlanLength ≤ frame.length - h.length ↔ h.length + vlanLength ≤ frame.length := by
    simp only [vlanLength]
    omega
  rw [this]

theorem skipTags_succ_of_not {n : Nat} (ht : isVlan h.etherType = false) : skipTags frame (n + 1) h = .ok h := by
  simp [skipTags, ht]

/-- Two tags at most are skipped, and as many as there are. -/
theorem decode_eq_ok_iff :
    decode frame = .ok r ↔ frame.networkOffset ≤ frame.length ∧
      r = ⟨frame.be16 (frame.networkOffset - 2), frame.tagCount, frame.networkOffset⟩ := by
  have hdecode : decode frame = .ok r ↔ ethernetLength ≤ frame.length ∧
      skipTags frame maxTags ⟨frame.be16 12, 0, ethernetLength⟩ = .ok r := Octets.require_bind_eq_ok frame
  rw [hdecode, Octets.networkOffset, Octets.tagCount, maxTags]
  cases h0 : isVlan (frame.be16 12) with
  | false =>
    rw [skipTags_succ_of_not h0, Except.ok.injEq, eq_comm]
    rfl
  | true =>
    rw [skipTags_succ_eq_ok h0]
    cases h1 : isVlan (frame.be16 16) with
    | false =>
      rw [skipTags_succ_of_not h1, Except.ok.injEq, eq_comm]
      exact ⟨fun h => h.2, fun h => ⟨Nat.le_of_add_right_le h.1, h⟩⟩
    | true =>
      rw [skipTags_succ_eq_ok h1, skipTags, Except.ok.injEq, eq_comm]
      exact ⟨fun h => h.2.2, fun h => ⟨Nat.le_of_add_right_le (k := 8) h.1, Nat.le_of_add_right_le (k := 4) h.1, h⟩⟩

theorem length_le_of_decode (hr : decode frame = .ok r) : r.length ≤ frame.length := by
  obtain ⟨hl, rfl⟩ := decode_eq_ok_iff.1 hr
  exact hl

end EthernetHeader

theorem Ipv4Header.decode_eq_ok_iff {packet : Octets} {r : Ipv4Header} :
    decode packet = .ok r ↔ packet.high4 0 = 4 ∧ ipv4MinLength ≤ packet.low4 0 * 4 ∧
      packet.low4 0 * 4 ≤ packet.length ∧
      r = ⟨packet.low4 0 * 4, (packet.be16 6).toNat % 0x2000, packet.at8 9, addressAt packet 12,
        addressAt packet 16⟩ := by
  simp only [decode, Octets.require_bind_eq_ok, refuse_eq_ok, Except.ok.injEq, ne_eq, Decidable.not_not, Nat.not_lt]
  -- The first length check is implied by the other two.
  constructor
  · rintro ⟨-, hv, hw, hl, rfl⟩
    exact ⟨hv, hw, hl, rfl⟩
  · rintro ⟨hv, hw, hl, rfl⟩
    exact ⟨Nat.le_trans hw hl, hv, hw, hl, rfl⟩

theorem Ipv4Header.length_le_of_decode {packet : Octets} {ip : Ipv4Header} (h : decode packet = .ok ip) :
    ip.length ≤ packet.length := by
  obtain ⟨-, -, hl, rfl⟩ := decode_eq_ok_iff.1 h
  exact hl

theorem TcpHeader.decode_eq_ok_iff {segment : Octets} {r : TcpHeader} :
    decode segment = .ok r ↔ tcpMinLength ≤ segment.length ∧ 5 ≤ segment.high4 12 ∧
      r = ⟨segment.be16 0, segment.be16 2, segment.high4 12 * 4⟩ := by
  have hwords : ¬segment.high4 12 * 4 < tcpMinLength ↔ 5 ≤ segment.high4 12 := by
    simp only [tcpMinLength]
    omega
  simp only [decode, Octets.require_bind_eq_ok, refuse_eq_ok, hwords, Except.ok.injEq]
  exact and_congr_right' (and_congr_right' eq_comm)

/-! ## The whole frame -/

/-- A frame has a tuple when its headers announce a segment and the segment is
complete, and then it is the one its fields spell. -/
theorem Frame.tuple?_eq_ok_iff {frame : Octets} {t : Tuple} :
    Frame.tuple? frame = .ok t ↔ frame.Announces ∧ frame.Complete ∧ t = frame.tuple := by
  simp only [Frame.tuple?, bind_eq_ok, refuse_eq_ok, EthernetHeader.decode_eq_ok_iff, Ipv4Header.decode_eq_ok_iff,
    TcpHeader.decode_eq_ok_iff, Except.ok.injEq, ne_eq, Decidable.not_not, and_assoc, exists_and_left, exists_eq_left,
    List.drop_drop, List.length_drop, Octets.be16_drop, Octets.high4_drop, Octets.low4_drop, Octets.at8_drop,
    Octets.addressAt_drop, Nat.add_zero]
  have hmin : 0 < tcpMinLength := by decide
  constructor
  · rintro ⟨-, he, hv, hw, -, hf, hp, hl, hd, ht⟩
    have hl : frame.segmentOffset + tcpMinLength ≤ frame.length := by
      simp only [Octets.segmentOffset, Octets.internetLength]
      omega
    exact ⟨⟨he, hw, hf, hp⟩, ⟨hv, hl, hd⟩, ht.symm⟩
  · rintro ⟨⟨he, hw, hf, hp⟩, ⟨hv, hl, hd⟩, ht⟩
    simp only [Octets.segmentOffset, Octets.internetLength] at hl
    exact ⟨by omega, he, hv, hw, by omega, hf, hp, by omega, hd, ht.symm⟩

end Splice
