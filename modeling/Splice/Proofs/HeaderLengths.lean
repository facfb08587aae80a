import Splice.Proofs.Truncation
/-!
# The lengths that headers announce

Three headers announce how long they are: the Ethernet header by its tags, the
other two in a field. The Ethernet and the IPv4 decoder find every octet they
announce in their input. The TCP decoder only asks for the part without options,
so an accepted header is there to its end unless the octets end in its options,
and a frame that does is accepted all the same.
-/

namespace Splice

/-- The headers of a frame, each decoded where the one in front of it ends. -/
structure Octets.Stack (frame : Octets) (ethernet : EthernetHeader) (ip : Ipv4Header) (tcp : TcpHeader) : Prop where
  decode_ethernet : EthernetHeader.decode frame = .ok ethernet
  decode_ip : Ipv4Header.decode (frame.drop ethernet.length) = .ok ip
  decode_tcp : TcpHeader.decode (frame.drop (ethernet.length + ip.length)) = .ok tcp

/-- The octets end in the options of the TCP header at `start`: behind its fixed
part and in front of the end that it announces. -/
def Octets.EndsInOptions (b : Octets) (start : Nat) : Prop :=
  start + tcpMinLength ≤ b.length ∧ b.length < start + b.high4 (start + 12) * 4

/-! ## Decoded lengths -/

namespace Octets

variable {b : Octets} {start : Nat}

/-- Options are announced by a data offset that the decoder accepts. -/
theorem EndsInOptions.dataOffset (h : b.EndsInOptions start) : 5 ≤ b.high4 (start + 12) := by
  obtain ⟨hl, hend⟩ := h
  simp only [tcpMinLength] at hl
  omega

theorem end_le_iff (hl : start + tcpMinLength ≤ b.length) :
    start + b.high4 (start + 12) * 4 ≤ b.length ↔ ¬b.EndsInOptions start := by
  rw [EndsInOptions, not_and, Nat.not_lt]
  exact ⟨fun h _ => h, fun h => h hl⟩

theorem Stack.lengths {ethernet : EthernetHeader} {ip : Ipv4Header} {tcp : TcpHeader} (h : b.Stack ethernet ip tcp) :
    ethernet.length + ip.length = b.segmentOffset ∧ tcp.length = b.high4 (b.segmentOffset + 12) * 4 := by
  obtain ⟨he, hi, ht⟩ := h
  obtain ⟨-, rfl⟩ := EthernetHeader.decode_eq_ok_iff.1 he
  obtain ⟨-, -, -, rfl⟩ := Ipv4Header.decode_eq_ok_iff.1 hi
  obtain ⟨-, -, rfl⟩ := TcpHeader.decode_eq_ok_iff.1 ht
  simp only [low4_drop, high4_drop]
  exact ⟨rfl, rfl⟩

end Octets

theorem Frame.exists_stack {frame : Octets} {t : Tuple} (h : Frame.tuple? frame = .ok t) :
    ∃ ethernet ip tcp, frame.Stack ethernet ip tcp := by
  simp only [Frame.tuple?, bind_eq_ok, refuse_eq_ok, List.drop_drop] at h
  obtain ⟨ethernet, he, -, ip, hi, -, -, tcp, ht, -⟩ := h
  exact ⟨ethernet, ip, tcp, he, hi, ht⟩

/-- An accepted TCP header is there to its end where its input does not end in
its options. -/
theorem TcpHeader.length_le_iff (segment : Octets) :
    (∀ tcp, decode segment = .ok tcp → tcp.length ≤ segment.length) ↔ ¬segment.EndsInOptions 0 := by
  constructor
  · intro hall hend
    have hl : 0 + tcpMinLength ≤ segment.length := hend.1
    rw [Nat.zero_add] at hl
    have hle := hall _ (decode_eq_ok_iff.2 ⟨hl, hend.dataOffset, rfl⟩)
    exact (Octets.end_le_iff hend.1).1 (by simpa using hle) hend
  · intro hnot tcp h
    obtain ⟨hl, -, rfl⟩ := decode_eq_ok_iff.1 h
    simpa using (Octets.end_le_iff (by simpa using hl)).2 hnot

/-- The same of the last header of a frame. -/
theorem Frame.stack_le_iff (frame : Octets) :
    (∀ t, Frame.tuple? frame = .ok t → ∃ ethernet ip tcp, frame.Stack ethernet ip tcp ∧
      ethernet.length + ip.length + tcp.length ≤ frame.length) ↔
    (frame.Announces → frame.high4 frame.networkOffset = 4 → ¬frame.EndsInOptions frame.segmentOffset) := by
  constructor
  · intro hall ha hv hend
    have hok : Frame.tuple? frame = .ok frame.tuple :=
      Frame.tuple?_eq_ok_iff.2 ⟨ha, ⟨hv, hend.1, hend.dataOffset⟩, rfl⟩
    obtain ⟨ethernet, ip, tcp, hstack, hle⟩ := hall _ hok
    obtain ⟨hfront, hlast⟩ := hstack.lengths
    rw [hfront, hlast] at hle
    exact (Octets.end_le_iff hend.1).1 hle hend
  · intro hnot t h
    obtain ⟨ha, hc, -⟩ := Frame.tuple?_eq_ok_iff.1 h
    obtain ⟨ethernet, ip, tcp, hstack⟩ := Frame.exists_stack h
    obtain ⟨hfront, hlast⟩ := hstack.lengths
    refine ⟨ethernet, ip, tcp, hstack, ?_⟩
    rw [hfront, hlast]
    exact (Octets.end_le_iff hc.length).2 (hnot ha hc.version)

/-! ## Options make no difference -/

/-- A segment is accepted as soon as the fixed part of its header is in. -/
theorem TcpHeader.decode_take_iff {segment : Octets} {tcp : TcpHeader} (h : decode segment = .ok tcp) (n : Nat) :
    decode (segment.take n) = .ok tcp ↔ tcpMinLength ≤ n := by
  obtain ⟨hl, hd, rfl⟩ := decode_eq_ok_iff.1 h
  rw [decode_eq_ok_iff, List.length_take]
  constructor
  · rintro ⟨hl', -⟩
    exact (Nat.le_min.1 hl').1
  · intro hn
    have : 20 ≤ n := hn
    rw [Octets.be16_take segment (by omega), Octets.be16_take segment (by omega), Octets.high4_take segment (by omega)]
    exact ⟨Nat.le_min.2 ⟨hn, hl⟩, hd, rfl⟩

theorem Octets.HeaderAt.end_le {b : Octets} {layer : Layer} {start needed : Nat} (h : b.HeaderAt layer start needed) :
    start + needed ≤ b.segmentOffset + tcpMinLength := by
  have : 14 ≤ b.networkOffset := Nat.le_add_right ethernetLength _
  cases h <;> simp only [Octets.segmentOffset, ethernetLength, vlanLength, ipv4MinLength, tcpMinLength] <;> omega

/-- So is a frame, whatever options its TCP header announces. -/
theorem Frame.tuple?_take_iff {frame : Octets} {t : Tuple} (h : Frame.tuple? frame = .ok t) (n : Nat) :
    Frame.tuple? (frame.take n) = .ok t ↔ frame.segmentOffset + tcpMinLength ≤ n := by
  have htake : frame.take n ++ frame.drop n = frame := List.take_append_drop n frame
  have hmin : 0 < tcpMinLength := by decide
  constructor
  · intro hn
    obtain ⟨-, hc, -⟩ := Frame.tuple?_eq_ok_iff.1 hn
    have hl := hc.length
    have ho := Octets.segmentOffset_append_left (frame.drop n) (b := frame.take n)
      (by rw [Octets.segmentOffset] at hl; omega)
    rw [htake] at ho
    rw [ho]
    exact Nat.le_trans hl (List.length_take_le n frame)
  · intro hn
    have hl : frame.segmentOffset + tcpMinLength ≤ frame.length := (Frame.tuple?_eq_ok_iff.1 h).2.1.length
    have hwhole (layer : Layer) (needed available : Nat) :
        Frame.tuple? (frame.take n) ≠ .error (.truncated layer needed available) := by
      intro hcut
      obtain ⟨start, hat, hlen, hlt⟩ := Frame.tuple?_eq_truncated_iff.1 hcut
      have hat := hat.append (frame.drop n)
      rw [htake] at hat
      have hend := hat.end_le
      rw [List.length_take] at hlen
      omega
    rw [← Frame.tuple?_append hwhole (frame.drop n), htake, h]

/-! ## Headers to their ends -/

/-- The Ethernet and the IPv4 header that a decoder accepts are there to their
ends. The TCP header is, alone or as the last of a frame, exactly if the octets
do not end in its options. -/
theorem headers_there_unless_options_cut (b : Octets) :
    (∀ ethernet, EthernetHeader.decode b = .ok ethernet → ethernet.length ≤ b.length) ∧
    (∀ ip, Ipv4Header.decode b = .ok ip → ip.length ≤ b.length) ∧
    ((∀ tcp, TcpHeader.decode b = .ok tcp → tcp.length ≤ b.length) ↔ ¬b.EndsInOptions 0) ∧
    ((∀ t, Frame.tuple? b = .ok t → ∃ ethernet ip tcp, b.Stack ethernet ip tcp ∧
      ethernet.length + ip.length + tcp.length ≤ b.length) ↔
    (b.Announces → b.high4 b.networkOffset = 4 → ¬b.EndsInOptions b.segmentOffset)) :=
  ⟨fun _ => EthernetHeader.length_le_of_decode, fun _ => Ipv4Header.length_le_of_decode, TcpHeader.length_le_iff b,
    Frame.stack_le_iff b⟩

/-- The fixed part of a TCP header that announces four octets of options. -/
def withoutOptions : Octets :=
  [0x9C, 0x40, 0x1F, 0x90, 0, 0, 0, 1, 0, 0, 0, 0, 0x60, 0x02, 0xFF, 0xFF, 0, 0, 0, 0]

/-- A frame that ends with it. -/
def frameWithoutOptions : Octets :=
  [2, 0, 0, 0, 0, 2, 2, 0, 0, 0, 0, 1, 0x08, 0x00] ++
    [0x45, 0, 0, 44, 0x12, 0x34, 0x40, 0, 64, 6, 0, 0, 10, 0, 0, 5, 10, 0, 0, 9] ++ withoutOptions

/-- With its options behind it the frame has three headers to their ends. -/
theorem headers_there_with_options :
    let frame := frameWithoutOptions ++ [0x02, 0x04, 0x05, 0xB4]
    Frame.tuple? frame = .ok ⟨⟨⟨10, 0, 0, 5⟩, 40000⟩, ⟨⟨10, 0, 0, 9⟩, 8080⟩⟩ ∧
    ∃ ethernet ip tcp, frame.Stack ethernet ip tcp ∧ ethernet.length + ip.length + tcp.length ≤ frame.length := by
  intro frame
  have h : Frame.tuple? frame = .ok ⟨⟨⟨10, 0, 0, 5⟩, 40000⟩, ⟨⟨10, 0, 0, 9⟩, 8080⟩⟩ := by decide +kernel
  have hend : ¬frame.EndsInOptions frame.segmentOffset := by
    rintro ⟨-, hlt⟩
    exact absurd hlt (by decide +kernel)
  obtain ⟨-, -, -, hframe⟩ := headers_there_unless_options_cut frame
  exact ⟨h, hframe.2 (fun _ _ => hend) _ h⟩

/-- A TCP header without the options it announces is accepted, alone and as the
end of a frame. -/
theorem header_without_options_accepted :
    TcpHeader.decode withoutOptions = .ok ⟨40000, 8080, 24⟩ ∧ withoutOptions.length = 20 ∧
    Frame.tuple? frameWithoutOptions = .ok ⟨⟨⟨10, 0, 0, 5⟩, 40000⟩, ⟨⟨10, 0, 0, 9⟩, 8080⟩⟩ ∧
    frameWithoutOptions.Stack ⟨etherIpv4, 0, 14⟩ ⟨20, 0, protocolTcp, ⟨10, 0, 0, 5⟩, ⟨10, 0, 0, 9⟩⟩ ⟨40000, 8080, 24⟩ ∧
    frameWithoutOptions.length < 14 + 20 + 24 := by
  refine ⟨by decide +kernel, rfl, by decide +kernel, ⟨?_, ?_, ?_⟩, by decide⟩ <;> decide +kernel

end Splice
