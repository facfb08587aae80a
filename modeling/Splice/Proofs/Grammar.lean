import Splice.Proofs.Layout
/-!
# The frames that have a tuple

A frame of a TCP connection is twelve octets of addresses, at most two VLAN
tags, the ethertype of IPv4, an IPv4 header and a TCP segment, one after the
other. `Encapsulates t frame` says so for the tuple `t`, octet by octet and
without a decoder. The decoder accepts these frames and no others, and reads
back the tuple; the octets that the grammar leaves open make no difference.
-/

namespace Splice

/-! ## The grammar -/

/-- A VLAN tag: one of the two ethertypes and two octets more. -/
def IsTag (b : Octets) : Prop := ∃ x y, b = [0x81, 0x00, x, y] ∨ b = [0x88, 0xA8, x, y]

/-- An Ethernet header in front of an IPv4 packet, with at most two tags. -/
def IsEthernetHeader (b : Octets) : Prop :=
  ∃ (addresses : Octets) (tags : List Octets), addresses.length = 12 ∧ tags.length ≤ 2 ∧ (∀ tag ∈ tags, IsTag tag) ∧
    b = addresses ++ tags.flatten ++ [0x08, 0x00]

/-- An IPv4 header of `h` words in front of a TCP segment or its first fragment. -/
structure IsIpv4Header (source destination : Ipv4) (h : Nat) (b : Octets) : Prop where
  words : 5 ≤ h ∧ h ≤ 15
  length : b.length = 4 * h
  first : b[0]? = some (.ofNat (0x40 + h))
  fragment : ∃ x y, (b.drop 6).take 2 = [x, y] ∧ (x.toNat * 256 + y.toNat) % 0x2000 = 0
  protocol : b[9]? = some 6
  source : (b.drop 12).take 4 = source.octets
  destination : (b.drop 16).take 4 = destination.octets

/-- A port in network order. -/
def portOctets (port : UInt16) : Octets := [.ofNat (port.toNat / 256), .ofNat port.toNat]

/-- A TCP segment with a whole header. -/
structure IsTcpSegment (source destination : UInt16) (b : Octets) : Prop where
  length : 20 ≤ b.length
  ports : b.take 4 = portOctets source ++ portOctets destination
  dataOffset : ∃ x, b[12]? = some x ∧ 5 ≤ x.toNat / 16

/-- The frame is one that the socket of `t` sends. -/
def Encapsulates (t : Tuple) (frame : Octets) : Prop :=
  ∃ ethernet ip segment h, IsEthernetHeader ethernet ∧ IsIpv4Header t.own.addr t.peer.addr h ip ∧
    IsTcpSegment t.own.port t.peer.port segment ∧ frame = ethernet ++ ip ++ segment

/-! ## Octets in place -/

namespace Octets

variable {b : Octets} {i n : Nat}

theorem take_succ_drop (h : i < b.length) : (b.drop i).take (n + 1) = b.at8 i :: (b.drop (i + 1)).take n := by
  rw [List.drop_eq_getElem_cons h, List.take_succ_cons]
  simp [at8, List.getD_eq_getElem?_getD, List.getElem?_eq_getElem h]

theorem getElem?_eq_some_iff (h : i < b.length) {x : UInt8} : b[i]? = some x ↔ b.at8 i = x := by
  simp [at8, List.getD_eq_getElem?_getD, List.getElem?_eq_getElem h]

theorem be16_eq_iff {w : UInt16} :
    b.be16 i = w ↔ b.at8 i = .ofNat (w.toNat / 256) ∧ b.at8 (i + 1) = .ofNat w.toNat := by
  have := (b.at8 i).toNat_lt; have := (b.at8 (i + 1)).toNat_lt; have := w.toNat_lt
  rw [← UInt16.toNat_inj, ← UInt8.toNat_inj, ← UInt8.toNat_inj, toNat_be16, UInt8.toNat_ofNat', UInt8.toNat_ofNat']
  omega

theorem take_two_drop (h : i + 2 ≤ b.length) : (b.drop i).take 2 = [b.at8 i, b.at8 (i + 1)] := by
  rw [take_succ_drop (by omega), take_succ_drop (by omega), List.take_zero]

theorem take_four_drop (h : i + 4 ≤ b.length) :
    (b.drop i).take 4 = [b.at8 i, b.at8 (i + 1), b.at8 (i + 2), b.at8 (i + 3)] := by
  rw [take_succ_drop (by omega), take_succ_drop (by omega), take_two_drop (by omega)]

theorem isVlan_be16_iff : isVlan (b.be16 i) = true ↔
    b.at8 i = 0x81 ∧ b.at8 (i + 1) = 0x00 ∨ b.at8 i = 0x88 ∧ b.at8 (i + 1) = 0xA8 := by
  simp only [isVlan, Bool.or_eq_true, beq_iff_eq, be16_eq_iff]
  rfl

theorem isTag_take_drop (h : i + 4 ≤ b.length) (hv : isVlan (b.be16 i) = true) : IsTag ((b.drop i).take 4) := by
  rw [take_four_drop h]
  refine ⟨b.at8 (i + 2), b.at8 (i + 3), ?_⟩
  rcases isVlan_be16_iff.1 hv with ⟨h0, h1⟩ | ⟨h0, h1⟩
  · exact .inl (by rw [h0, h1])
  · exact .inr (by rw [h0, h1])

theorem take_four_drop_eq_octets (h : i + 4 ≤ b.length) {x : Ipv4} :
    (b.drop i).take 4 = x.octets ↔ Ipv4Header.addressAt b i = x := by
  obtain ⟨x0, x1, x2, x3⟩ := x
  simp [take_four_drop h, Ipv4.octets, Ipv4Header.addressAt]

theorem take_four_eq_ports (h : 4 ≤ b.length) {v w : UInt16} :
    b.take 4 = portOctets v ++ portOctets w ↔ b.be16 0 = v ∧ b.be16 2 = w := by
  rw [be16_eq_iff, be16_eq_iff, ← List.drop_zero (l := b), take_four_drop (by simpa using h)]
  simp [portOctets, and_assoc]

/-- Version 4 and a number of words share one octet. -/
theorem at8_eq_version_words {h : Nat} (hh : h ≤ 15) :
    b.at8 i = .ofNat (0x40 + h) ↔ b.high4 i = 4 ∧ h = b.low4 i := by
  have := (b.at8 i).toNat_lt
  rw [← UInt8.toNat_inj, UInt8.toNat_ofNat', high4, low4]
  omega

end Octets

/-! ## The three parts -/

theorem IsTag.isVlan {tag : Octets} (h : IsTag tag) (rest : Octets) : isVlan (Octets.be16 (tag ++ rest) 0) = true := by
  rw [Octets.isVlan_be16_iff]
  obtain ⟨x, y, rfl | rfl⟩ := h
  · exact .inl ⟨rfl, rfl⟩
  · exact .inr ⟨rfl, rfl⟩

theorem IsTag.length {tag : Octets} (h : IsTag tag) : tag.length = 4 := by
  obtain ⟨x, y, rfl | rfl⟩ := h <;> rfl

theorem isIpv4Header_iff {source destination : Ipv4} {h : Nat} {b : Octets} :
    IsIpv4Header source destination h b ↔
      h = b.low4 0 ∧ b.length = h * 4 ∧ ipv4MinLength ≤ h * 4 ∧ b.high4 0 = 4 ∧ (b.be16 6).toNat % 0x2000 = 0 ∧
        b.at8 9 = protocolTcp ∧ Ipv4Header.addressAt b 12 = source ∧ Ipv4Header.addressAt b 16 = destination := by
  constructor
  · rintro ⟨hw, hl, hfirst, ⟨x, y, hxy, hf⟩, hp, hs, hd⟩
    rw [Octets.getElem?_eq_some_iff (by omega), Octets.at8_eq_version_words hw.2] at hfirst
    rw [Octets.take_two_drop (by omega)] at hxy
    obtain ⟨rfl, rfl⟩ : b.at8 6 = x ∧ b.at8 7 = y := by simpa using hxy
    exact ⟨hfirst.2, by omega, by simp only [ipv4MinLength]; omega, hfirst.1, by rwa [Octets.toNat_be16],
      (Octets.getElem?_eq_some_iff (by omega)).1 hp, (Octets.take_four_drop_eq_octets (by omega)).1 hs,
      (Octets.take_four_drop_eq_octets (by omega)).1 hd⟩
  · rintro ⟨hh, hl, hw, hv, hf, hp, hs, hd⟩
    have hmax : h ≤ 15 := by
      rw [hh, Octets.low4]
      omega
    simp only [ipv4MinLength] at hw
    exact {
      words := by omega
      length := by omega
      first := by rw [Octets.getElem?_eq_some_iff (by omega), Octets.at8_eq_version_words hmax]; exact ⟨hv, hh⟩
      fragment := ⟨b.at8 6, b.at8 7, Octets.take_two_drop (by omega), by rwa [Octets.toNat_be16] at hf⟩
      protocol := (Octets.getElem?_eq_some_iff (by omega)).2 hp
      source := (Octets.take_four_drop_eq_octets (by omega)).2 hs
      destination := (Octets.take_four_drop_eq_octets (by omega)).2 hd }

theorem isTcpSegment_iff {source destination : UInt16} {b : Octets} :
    IsTcpSegment source destination b ↔
      tcpMinLength ≤ b.length ∧ b.be16 0 = source ∧ b.be16 2 = destination ∧ 5 ≤ b.high4 12 := by
  constructor
  · rintro ⟨hl, hports, x, hx, hd⟩
    rw [Octets.take_four_eq_ports (by omega)] at hports
    rw [Octets.getElem?_eq_some_iff (by omega)] at hx
    exact ⟨hl, hports.1, hports.2, by rw [Octets.high4, hx]; exact hd⟩
  · rintro ⟨hl, hs, hd, ho⟩
    have hl : 20 ≤ b.length := hl
    refine ⟨hl, (Octets.take_four_eq_ports (by omega)).2 ⟨hs, hd⟩, b.at8 12, ?_, ho⟩
    exact (Octets.getElem?_eq_some_iff (by omega)).2 rfl

/-- Reading behind a part that is there. -/
theorem Octets.be16_append {part : Octets} {n : Nat} (h : part.length = n) (rest : Octets) (i : Nat) :
    be16 (part ++ rest) (n + i) = be16 rest i := by
  rw [← be16_drop, List.drop_left' h]

theorem be16_etherIpv4 (rest : Octets) : Octets.be16 ([0x08, 0x00] ++ rest) 0 = etherIpv4 :=
  Octets.be16_eq_iff.2 ⟨rfl, rfl⟩

section Tags

variable {tags : List Octets} (htags : ∀ tag ∈ tags, IsTag tag)
include htags

theorem length_flatten_tags : tags.flatten.length = 4 * tags.length := by
  induction tags with
  | nil => rfl
  | cons tag tags ih =>
    have htag : tag.length = 4 := (htags tag List.mem_cons_self).length
    have ih := ih fun tag h => htags tag (List.mem_cons_of_mem _ h)
    rw [List.flatten_cons, List.length_append, List.length_cons, htag, ih, Nat.mul_succ, Nat.add_comm]

theorem tagCount_eq_length {addresses : Octets} (ha : addresses.length = 12) (ht : tags.length ≤ 2) (rest : Octets) :
    Octets.tagCount (addresses ++ (tags.flatten ++ ([0x08, 0x00] ++ rest))) = tags.length := by
  have hnot : isVlan etherIpv4 = false := by decide
  rw [Octets.tagCount, Octets.be16_append ha _ 0, Octets.be16_append ha _ 4]
  rcases tags with _ | ⟨outer, _ | ⟨inner, _ | ⟨more, tags⟩⟩⟩
  · rw [List.flatten_nil, List.nil_append, be16_etherIpv4, hnot]
    rfl
  · have houter : IsTag outer := htags outer (by simp)
    simp only [List.flatten_cons, List.flatten_nil, List.append_nil, houter.isVlan]
    rw [Octets.be16_append houter.length _ 0, be16_etherIpv4, hnot]
    rfl
  · have houter : IsTag outer := htags outer (by simp)
    have hinner : IsTag inner := htags inner (by simp)
    simp only [List.flatten_cons, List.flatten_nil, List.append_nil, List.append_assoc, houter.isVlan]
    rw [Octets.be16_append houter.length _ 0, hinner.isVlan]
    rfl
  · simp only [List.length_cons] at ht
    omega

end Tags

/-- Behind an Ethernet header the network header starts. -/
theorem IsEthernetHeader.networkOffset {b : Octets} (h : IsEthernetHeader b) (rest : Octets) :
    Octets.networkOffset (b ++ rest) = b.length ∧ Octets.be16 (b ++ rest) (b.length - 2) = etherIpv4 := by
  obtain ⟨addresses, tags, ha, ht, htags, rfl⟩ := h
  have hfront : (addresses ++ tags.flatten).length = 12 + 4 * tags.length := by
    rw [List.length_append, ha, length_flatten_tags htags]
  have hlen : (addresses ++ tags.flatten ++ [0x08, 0x00]).length = 12 + 4 * tags.length + 2 := by
    rw [List.length_append, hfront]
    rfl
  constructor
  · rw [Octets.networkOffset, hlen, List.append_assoc, List.append_assoc, tagCount_eq_length htags ha ht]
    simp only [ethernetLength, vlanLength]
    omega
  · rw [hlen, Nat.add_sub_cancel, List.append_assoc, ← be16_etherIpv4 rest]
    exact Octets.be16_append hfront _ 0

/-- What stands in front of an IPv4 packet is an Ethernet header. -/
theorem isEthernetHeader_take {b : Octets} (h : b.networkOffset ≤ b.length)
    (he : b.be16 (b.networkOffset - 2) = etherIpv4) : IsEthernetHeader (b.take b.networkOffset) := by
  have htype {i : Nat} (hi : i + 2 ≤ b.length) (hip : b.be16 i = etherIpv4) : (b.drop i).take 2 = [0x08, 0x00] := by
    obtain ⟨h0, h1⟩ := Octets.be16_eq_iff.1 hip
    rw [Octets.take_two_drop hi, h0, h1]
    rfl
  cases h0 : isVlan (b.be16 12) with
  | false =>
    rw [Octets.networkOffset_of_plain h0] at h he ⊢
    refine ⟨b.take 12, [], by simp; omega, by simp, by simp, ?_⟩
    rw [List.take_add (i := 12) (j := 2), htype h he]
    simp
  | true =>
    cases h1 : isVlan (b.be16 16) with
    | false =>
      rw [Octets.networkOffset_of_tag h0 h1] at h he ⊢
      refine ⟨b.take 12, [(b.drop 12).take 4], by simp; omega, by simp, ?_, ?_⟩
      · simpa using Octets.isTag_take_drop (by omega) h0
      · rw [List.take_add (i := 16) (j := 2), List.take_add (i := 12) (j := 4), htype h he]
        simp
    | true =>
      rw [Octets.networkOffset_of_tags h0 h1] at h he ⊢
      refine ⟨b.take 12, [(b.drop 12).take 4, (b.drop 16).take 4], by simp; omega, by simp, ?_, ?_⟩
      · simpa using ⟨Octets.isTag_take_drop (by omega) h0, Octets.isTag_take_drop (by omega) h1⟩
      · rw [List.take_add (i := 20) (j := 2), List.take_add (i := 16) (j := 4), List.take_add (i := 12) (j := 4),
          htype h he]
        simp

/-! ## Parts of a frame -/

section Cut

variable {b : Octets} {o : Nat}

/-- What is cut out of a frame is an IPv4 header when the fields at the cut are one's. -/
theorem isIpv4Header_take_drop_iff {source destination : Ipv4} {h : Nat} (hlen : ipv4MinLength ≤ h * 4) :
    IsIpv4Header source destination h ((b.drop o).take (h * 4)) ↔
      h = b.low4 o ∧ h * 4 ≤ b.length - o ∧ b.high4 o = 4 ∧ (b.be16 (o + 6)).toNat % 0x2000 = 0 ∧
        b.at8 (o + 9) = protocolTcp ∧ Ipv4Header.addressAt b (o + 12) = source ∧
        Ipv4Header.addressAt b (o + 16) = destination := by
  have hmin : 20 ≤ h * 4 := hlen
  have hwhole : min (h * 4) (b.length - o) = h * 4 ↔ h * 4 ≤ b.length - o := by omega
  rw [isIpv4Header_iff]
  simp (disch := omega) only [Octets.low4_take, Octets.high4_take, Octets.be16_take, Octets.at8_take,
    Octets.addressAt_take, Octets.low4_drop, Octets.high4_drop, Octets.be16_drop, Octets.at8_drop,
    Octets.addressAt_drop, List.length_take, List.length_drop, hwhole, Nat.add_zero]
  constructor
  · rintro ⟨hh, hl, -, hfields⟩
    exact ⟨hh, hl, hfields⟩
  · rintro ⟨hh, hl, hfields⟩
    exact ⟨hh, hl, hlen, hfields⟩

/-- What is left of a frame is a TCP segment when the fields from there on are one's. -/
theorem isTcpSegment_drop_iff {source destination : UInt16} :
    IsTcpSegment source destination (b.drop o) ↔
      tcpMinLength ≤ b.length - o ∧ b.be16 o = source ∧ b.be16 (o + 2) = destination ∧ 5 ≤ b.high4 (o + 12) := by
  rw [isTcpSegment_iff]
  simp only [List.length_drop, Octets.be16_drop, Octets.high4_drop, Nat.add_zero]

end Cut

/-! ## The decoder and the grammar -/

/-- A frame with a tuple falls into the parts that its fields delimit. -/
theorem encapsulates_of_fields {frame : Octets} (ha : frame.Announces) (hc : frame.Complete) :
    Encapsulates frame.tuple frame := by
  have hle : frame.networkOffset + frame.internetLength ≤ frame.length := Nat.le_of_add_right_le hc.length
  refine ⟨frame.take frame.networkOffset, (frame.drop frame.networkOffset).take frame.internetLength,
    frame.drop frame.segmentOffset, frame.low4 frame.networkOffset, ?_, ?_, ?_, ?_⟩
  · exact isEthernetHeader_take (Nat.le_of_add_right_le hle) ha.etherType
  · exact (isIpv4Header_take_drop_iff ha.internetLength).2
      ⟨rfl, Nat.le_sub_of_add_le' hle, hc.version, ha.fragment, ha.protocol, rfl, rfl⟩
  · exact isTcpSegment_drop_iff.2 ⟨Nat.le_sub_of_add_le' hc.length, rfl, rfl, hc.dataOffset⟩
  · rw [List.append_assoc, Octets.segmentOffset, ← List.drop_drop, List.take_append_drop, List.take_append_drop]

/-- The parts of a frame of the grammar stand where its fields say. -/
theorem Encapsulates.fields {t : Tuple} {frame : Octets} (h : Encapsulates t frame) :
    frame.Announces ∧ frame.Complete ∧ t = frame.tuple := by
  obtain ⟨ethernet, ip, segment, h, hethernet, hip, hsegment, hframe⟩ := h
  have hwords : ip.length = h * 4 := by rw [hip.length, Nat.mul_comm]
  have hmin : ipv4MinLength ≤ h * 4 := Nat.mul_le_mul_right 4 hip.words.1
  rw [List.append_assoc] at hframe
  obtain ⟨ho, he⟩ := hethernet.networkOffset (ip ++ segment)
  rw [← hframe] at ho he
  rw [← ho] at he
  have hrest : frame.drop frame.networkOffset = ip ++ segment := by rw [ho, hframe, List.drop_left]
  rw [show ip = (frame.drop frame.networkOffset).take (h * 4) by rw [hrest, ← hwords, List.take_left],
    isIpv4Header_take_drop_iff hmin] at hip
  obtain ⟨hh, hle, hv, hf, hp, hs, hd⟩ := hip
  have hoffset : frame.segmentOffset = frame.networkOffset + h * 4 := by
    rw [Octets.segmentOffset, Octets.internetLength, ← hh]
  rw [show segment = frame.drop frame.segmentOffset by
      rw [hoffset, ← List.drop_drop, hrest, ← hwords, List.drop_left],
    isTcpSegment_drop_iff] at hsegment
  obtain ⟨hl, hsp, hdp, hdata⟩ := hsegment
  have hpos : 0 < tcpMinLength := by decide
  refine ⟨⟨he, ?_, hf, hp⟩, ⟨hv, by omega, hdata⟩, ?_⟩
  · rw [Octets.internetLength, ← hh]
    exact hmin
  · rw [Octets.tuple, hs, hd, hsp, hdp]

/-- A frame with a bare header of each kind. -/
theorem exists_encapsulates (t : Tuple) : ∃ frame, Encapsulates t frame := by
  have hip : IsIpv4Header t.own.addr t.peer.addr 5
      ([0x45, 0, 0, 40, 0, 0, 0, 0, 64, 6, 0, 0] ++ t.own.addr.octets ++ t.peer.addr.octets) :=
    ⟨by decide, rfl, rfl, ⟨0, 0, rfl, rfl⟩, rfl, rfl, rfl⟩
  have hsegment : IsTcpSegment t.own.port t.peer.port
      (portOctets t.own.port ++ portOctets t.peer.port ++ [0, 0, 0, 1, 0, 0, 0, 1, 0x50, 0x10, 0, 0, 0, 0, 0, 0]) :=
    ⟨Nat.le_refl 20, rfl, 0x50, rfl, by decide⟩
  exact ⟨_, _, _, _, 5, ⟨List.replicate 12 0, [], rfl, by decide, by simp, rfl⟩, hip, hsegment, rfl⟩

/-- The decoder reads a tuple from the frames that the grammar gives for it and
from no others. -/
theorem decoder_accepts_grammar (t : Tuple) :
    (∀ frame, Frame.tuple? frame = .ok t ↔ Encapsulates t frame) ∧ ∃ frame, Encapsulates t frame := by
  refine ⟨fun frame => ?_, exists_encapsulates t⟩
  rw [Frame.tuple?_eq_ok_iff]
  constructor
  · rintro ⟨ha, hc, rfl⟩
    exact encapsulates_of_fields ha hc
  · exact Encapsulates.fields

end Splice
