import Mathlib.Order.Bounds.Basic
import Splice.Proofs.Grammar
/-!
# Frames that are cut off

A frame can be read before its last octet is in. An answer that is not about
missing octets is final: every frame that starts this way gets it. A truncated
answer names a header of the frame, how long that header is and how much of it
is there. It stays the same, the count aside, until the header is whole, and
with that it can give way to another answer.
-/

namespace Splice

/-! ## Answers that stay -/

/-- What the answer to some octets says of the answer to the same and `n` more. -/
def Foretells {α : Type} (n : Nat) : Except DecodeError α → Except DecodeError α → Prop
  | .error (.truncated layer needed available), r =>
    available < needed ∧ (n < needed - available → r = .error (.truncated layer needed (available + n)))
  | r, r' => r' = r

namespace Foretells

variable {α β : Type} {n : Nat}

theorem bind {r r' : Except DecodeError β} {f f' : β → Except DecodeError α} (h : Foretells n r r')
    (hf : ∀ x, r = .ok x → Foretells n (f x) (f' x)) : Foretells n (r >>= f) (r' >>= f') := by
  cases r with
  | ok x =>
    obtain rfl : r' = .ok x := h
    exact hf x rfl
  | error e =>
    cases e with
    | truncated layer needed available =>
      refine ⟨h.1, ?_⟩
      intro hn
      rw [h.2 hn]
      rfl
    | _ =>
      obtain rfl : r' = .error _ := h
      rfl

/-- A check of octets that are there comes out the same. -/
theorem refuse {p : Prop} [Decidable p] {e : DecodeError} {r r' : Except DecodeError α}
    (he : Foretells (α := α) n (.error e) (.error e)) (h : ¬p → Foretells n r r') :
    Foretells n (if p then .error e else r) (if p then .error e else r') := by
  by_cases hp : p
  · rwa [if_pos hp, if_pos hp]
  · rw [if_neg hp, if_neg hp]
    exact h hp

theorem require (b s : Octets) (layer : Layer) (needed : Nat) :
    Foretells s.length (b.require layer needed) (Octets.require (b ++ s) layer needed) := by
  rw [Octets.require, Octets.require, List.length_append]
  by_cases h : needed ≤ b.length
  · rw [if_pos h, if_pos (Nat.le_add_right_of_le h)]
    rfl
  · rw [if_neg h]
    exact ⟨Nat.lt_of_not_le h, fun hs => if_neg (by omega)⟩

/-- What follows a length check may rely on it. -/
theorem require_bind {b s : Octets} {layer : Layer} {needed : Nat} {f f' : Unit → Except DecodeError α}
    (h : needed ≤ b.length → Foretells s.length (f ()) (f' ())) :
    Foretells s.length (b.require layer needed >>= f) (Octets.require (b ++ s) layer needed >>= f') := by
  apply (require b s layer needed).bind
  intro u hu
  apply h
  by_contra hlt
  rw [Octets.require, if_neg hlt] at hu
  cases hu

end Foretells

theorem EthernetHeader.skipTags_foretells (frame s : Octets) (n : Nat) (h : EthernetHeader)
    (hl : h.length ≤ frame.length) : Foretells s.length (skipTags frame n h) (skipTags (frame ++ s) n h) := by
  induction n generalizing h with
  | zero => rfl
  | succ n ih =>
    cases ht : isVlan h.etherType with
    | false =>
      rw [skipTags_succ_of_not ht, skipTags_succ_of_not ht]
      rfl
    | true =>
      rw [skipTags, skipTags, if_pos ht, if_pos ht, List.drop_append_of_le_length hl]
      apply Foretells.require_bind
      intro htag
      rw [Octets.be16_append_left s htag]
      apply ih
      rw [List.length_drop] at htag
      exact Nat.add_le_of_le_sub' hl htag

theorem EthernetHeader.decode_foretells (frame s : Octets) :
    Foretells s.length (decode frame) (decode (frame ++ s)) := by
  apply Foretells.require_bind
  intro hl
  rw [Octets.be16_append_left s hl]
  exact skipTags_foretells frame s maxTags _ hl

theorem Ipv4Header.decode_foretells (packet s : Octets) :
    Foretells s.length (decode packet) (decode (packet ++ s)) := by
  apply Foretells.require_bind
  intro hl
  have hl : 20 ≤ packet.length := hl
  rw [Octets.high4_append_left s (by omega), Octets.low4_append_left s (by omega)]
  refine Foretells.refuse rfl ?_
  intro hversion
  refine Foretells.refuse rfl ?_
  intro hwords
  apply Foretells.require_bind
  intro hoptions
  rw [Octets.be16_append_left s (by omega), Octets.at8_append_left s (by omega),
    Octets.addressAt_append_left s (by omega), Octets.addressAt_append_left s (by omega)]
  rfl

theorem TcpHeader.decode_foretells (segment s : Octets) :
    Foretells s.length (decode segment) (decode (segment ++ s)) := by
  apply Foretells.require_bind
  intro hl
  have hl : 20 ≤ segment.length := hl
  rw [Octets.high4_append_left s (by omega), Octets.be16_append_left s (by omega),
    Octets.be16_append_left s (by omega)]
  refine Foretells.refuse rfl ?_
  intro hwords
  rfl

theorem Frame.tuple?_foretells (frame s : Octets) :
    Foretells s.length (Frame.tuple? frame) (Frame.tuple? (frame ++ s)) := by
  apply (EthernetHeader.decode_foretells frame s).bind
  intro ethernet he
  refine Foretells.refuse rfl ?_
  intro htype
  rw [List.drop_append_of_le_length (EthernetHeader.length_le_of_decode he)]
  apply (Ipv4Header.decode_foretells _ s).bind
  intro ip hip
  refine Foretells.refuse rfl ?_
  intro hfragment
  refine Foretells.refuse rfl ?_
  intro hprotocol
  rw [List.drop_append_of_le_length (Ipv4Header.length_le_of_decode hip)]
  apply (TcpHeader.decode_foretells _ s).bind
  intro tcp htcp
  rfl

/-! ## Where a header stands -/

/-- A header of the layer starts `start` octets into `b` and is `needed` octets
long: the octets in front of it say so, and of its own those that a header of
the layer always has. -/
inductive Octets.HeaderAt (b : Octets) : (layer : Layer) → (start needed : Nat) → Prop where
  | ethernet : HeaderAt b .ethernet 0 ethernetLength
  | tag (there : 14 ≤ b.length) (outer : isVlan (b.be16 12) = true) : HeaderAt b .vlan 14 vlanLength
  | innerTag (there : 18 ≤ b.length) (outer : isVlan (b.be16 12) = true) (inner : isVlan (b.be16 16) = true) :
    HeaderAt b .vlan 18 vlanLength
  | ipv4 (there : b.networkOffset ≤ b.length) (etherType : b.be16 (b.networkOffset - 2) = etherIpv4) :
    HeaderAt b .ipv4 b.networkOffset ipv4MinLength
  | options (there : b.networkOffset + ipv4MinLength ≤ b.length)
    (etherType : b.be16 (b.networkOffset - 2) = etherIpv4) (version : b.high4 b.networkOffset = 4)
    (internetLength : ipv4MinLength ≤ b.internetLength) : HeaderAt b .ipv4 b.networkOffset b.internetLength
  | tcp (there : b.segmentOffset ≤ b.length) (announced : b.Announces) (version : b.high4 b.networkOffset = 4) :
    HeaderAt b .tcp b.segmentOffset tcpMinLength

variable {layer : Layer} {needed available : Nat}

theorem EthernetHeader.skipTags_succ_eq_error_iff {frame : Octets} {h : EthernetHeader} {n : Nat} {e : DecodeError}
    (ht : isVlan h.etherType = true) :
    skipTags frame (n + 1) h = .error e ↔
      frame.length - h.length < vlanLength ∧ .truncated .vlan vlanLength (frame.length - h.length) = e ∨
        vlanLength ≤ frame.length - h.length ∧
          skipTags frame n ⟨frame.be16 (h.length + 2), h.tags + 1, h.length + vlanLength⟩ = .error e := by
  simp only [skipTags, if_pos ht, Octets.require_bind_eq_error, Octets.be16_drop, List.length_drop]

/-- The Ethernet decoder stops at a header of its own that is not whole. -/
theorem EthernetHeader.decode_eq_error_iff {frame : Octets} {e : DecodeError} :
    decode frame = .error e ↔
      frame.length < ethernetLength ∧ .truncated .ethernet ethernetLength frame.length = e ∨
        ethernetLength ≤ frame.length ∧ isVlan (frame.be16 12) = true ∧
          (frame.length - 14 < vlanLength ∧ .truncated .vlan vlanLength (frame.length - 14) = e ∨
            vlanLength ≤ frame.length - 14 ∧ isVlan (frame.be16 16) = true ∧
              frame.length - 18 < vlanLength ∧ .truncated .vlan vlanLength (frame.length - 18) = e) := by
  have hdecode : decode frame = .error e ↔
      frame.length < ethernetLength ∧ .truncated .ethernet ethernetLength frame.length = e ∨
        ethernetLength ≤ frame.length ∧ skipTags frame maxTags ⟨frame.be16 12, 0, ethernetLength⟩ = .error e :=
    Octets.require_bind_eq_error frame
  rw [hdecode, maxTags]
  cases h0 : isVlan (frame.be16 12) with
  | false =>
    rw [skipTags_succ_of_not h0]
    simp
  | true =>
    rw [skipTags_succ_eq_error_iff h0]
    cases h1 : isVlan (frame.be16 16) with
    | false =>
      rw [skipTags_succ_of_not h1]
      simp [ethernetLength]
    | true =>
      rw [skipTags_succ_eq_error_iff h1, skipTags]
      simp [ethernetLength, vlanLength]

theorem Ipv4Header.decode_eq_truncated_iff {packet : Octets} :
    decode packet = .error (.truncated layer needed available) ↔
      .ipv4 = layer ∧ packet.length = available ∧ (packet.length < ipv4MinLength ∧ ipv4MinLength = needed ∨
        ipv4MinLength ≤ packet.length ∧ packet.high4 0 = 4 ∧ ipv4MinLength ≤ packet.low4 0 * 4 ∧
          packet.length < packet.low4 0 * 4 ∧ packet.low4 0 * 4 = needed) := by
  simp only [decode, Octets.require_bind_eq_error, refuse_eq_error, reduceCtorEq, and_false, false_or, or_false,
    DecodeError.truncated.injEq, ne_eq, Decidable.not_not, Nat.not_lt]
  tauto

theorem TcpHeader.decode_eq_truncated_iff {segment : Octets} :
    decode segment = .error (.truncated layer needed available) ↔
      .tcp = layer ∧ segment.length = available ∧ segment.length < tcpMinLength ∧ tcpMinLength = needed := by
  simp only [decode, Octets.require_bind_eq_error, refuse_eq_error, reduceCtorEq, and_false, or_false,
    DecodeError.truncated.injEq]
  tauto

/-- A frame is cut off in the header that the answer names and at the octet that
the answer says. -/
theorem Frame.tuple?_eq_truncated_iff {frame : Octets} :
    Frame.tuple? frame = .error (.truncated layer needed available) ↔
      ∃ start, frame.HeaderAt layer start needed ∧ frame.length = start + available ∧ available < needed := by
  simp only [Frame.tuple?, bind_eq_error, refuse_eq_error, EthernetHeader.decode_eq_error_iff,
    Ipv4Header.decode_eq_truncated_iff, TcpHeader.decode_eq_truncated_iff, EthernetHeader.decode_eq_ok_iff,
    Ipv4Header.decode_eq_ok_iff, DecodeError.truncated.injEq, reduceCtorEq, and_false, false_or, or_false, exists_false,
    exists_and_left, exists_eq_left, and_assoc, List.drop_drop, List.length_drop, Octets.be16_drop, Octets.high4_drop,
    Octets.low4_drop, Octets.at8_drop, Nat.add_zero, ne_eq, Decidable.not_not]
  constructor
  · intro h
    rcases h with (⟨hlt, rfl, rfl, rfl⟩ | ⟨hl, houter, htag⟩) | ⟨hl, htype, hip | htcp⟩
    · exact ⟨0, .ethernet, (Nat.zero_add _).symm, hlt⟩
    · rcases htag with ⟨hlt, rfl, rfl, rfl⟩ | ⟨hl', hinner, hlt, rfl, rfl, rfl⟩
      · exact ⟨14, .tag hl houter, (Nat.add_sub_of_le hl).symm, hlt⟩
      · have hl : 18 ≤ frame.length := Nat.add_le_of_le_sub' hl hl'
        exact ⟨18, .innerTag hl houter hinner, (Nat.add_sub_of_le hl).symm, hlt⟩
    · rcases hip with ⟨rfl, rfl, ⟨hlt, rfl⟩ | ⟨hmin, hv, hw, hlt, rfl⟩⟩
      · exact ⟨_, .ipv4 hl htype, (Nat.add_sub_of_le hl).symm, hlt⟩
      · exact ⟨_, .options (Nat.add_le_of_le_sub' hl hmin) htype hv hw, (Nat.add_sub_of_le hl).symm, hlt⟩
    · obtain ⟨hv, hw, hl', hf, hp, rfl, rfl, hlt, rfl⟩ := htcp
      have hl : frame.segmentOffset ≤ frame.length := Nat.add_le_of_le_sub' hl hl'
      exact ⟨_, .tcp hl ⟨htype, hw, hf, hp⟩ hv, (Nat.add_sub_of_le hl).symm, hlt⟩
  · intro h
    obtain ⟨start, hat, hlen, hlt⟩ := h
    obtain rfl : frame.length - start = available := by omega
    cases hat with
    | ethernet => exact .inl (.inl ⟨hlt, rfl, rfl, rfl⟩)
    | tag there outer => exact .inl (.inr ⟨there, outer, .inl ⟨hlt, rfl, rfl, rfl⟩⟩)
    | innerTag there outer inner =>
      have houter : 14 ≤ frame.length := Nat.le_of_add_right_le (k := 4) there
      exact .inl (.inr ⟨houter, outer, .inr ⟨Nat.le_sub_of_add_le' there, inner, hlt, rfl, rfl, rfl⟩⟩)
    | ipv4 there etherType => exact .inr ⟨there, etherType, .inl ⟨rfl, rfl, .inl ⟨hlt, rfl⟩⟩⟩
    | options there etherType version internetLength =>
      exact .inr ⟨Nat.le_of_add_right_le there, etherType,
        .inl ⟨rfl, rfl, .inr ⟨Nat.le_sub_of_add_le' there, version, internetLength, hlt, rfl⟩⟩⟩
    | tcp there announced version =>
      exact .inr ⟨Nat.le_of_add_right_le there, announced.etherType, .inr ⟨version, announced.internetLength,
        Nat.le_sub_of_add_le' there, announced.fragment, announced.protocol, rfl, rfl, hlt, rfl⟩⟩

/-! ## More octets -/

namespace Octets

variable {b : Octets} (s : Octets)

theorem networkOffset_append_left (h : b.networkOffset ≤ b.length) : (b ++ s).networkOffset = b.networkOffset := by
  cases h0 : isVlan (b.be16 12) with
  | false =>
    rw [networkOffset_of_plain h0] at h ⊢
    exact networkOffset_of_plain ((isVlan_append_left s (by omega)).trans h0)
  | true =>
    have houter (hl : 14 ≤ b.length) : isVlan (be16 (b ++ s) 12) = true := (isVlan_append_left s (by omega)).trans h0
    cases h1 : isVlan (b.be16 16) with
    | false =>
      rw [networkOffset_of_tag h0 h1] at h ⊢
      exact networkOffset_of_tag (houter (by omega)) ((isVlan_append_left s (by omega)).trans h1)
    | true =>
      rw [networkOffset_of_tags h0 h1] at h ⊢
      exact networkOffset_of_tags (houter (by omega)) ((isVlan_append_left s (by omega)).trans h1)

theorem etherType_append_left (h : b.networkOffset ≤ b.length) :
    be16 (b ++ s) ((b ++ s).networkOffset - 2) = b.be16 (b.networkOffset - 2) := by
  have : 14 ≤ b.networkOffset := Nat.le_add_right ethernetLength _
  rw [networkOffset_append_left s h, be16_append_left s (by omega)]

theorem version_append_left (h : b.networkOffset < b.length) :
    high4 (b ++ s) (b ++ s).networkOffset = b.high4 b.networkOffset := by
  rw [networkOffset_append_left s (Nat.le_of_lt h), high4_append_left s h]

theorem internetLength_append_left (h : b.networkOffset < b.length) :
    (b ++ s).internetLength = b.internetLength := by
  rw [internetLength, internetLength, networkOffset_append_left s (Nat.le_of_lt h), low4_append_left s h]

theorem segmentOffset_append_left (h : b.networkOffset < b.length) : (b ++ s).segmentOffset = b.segmentOffset := by
  rw [segmentOffset, segmentOffset, networkOffset_append_left s (Nat.le_of_lt h), internetLength_append_left s h]

theorem Announces.append (h : b.Announces) (hl : b.networkOffset + 20 ≤ b.length) : (b ++ s).Announces := by
  have ho : (b ++ s).networkOffset = b.networkOffset := networkOffset_append_left s (by omega)
  constructor
  · rw [etherType_append_left s (by omega), h.etherType]
  · rw [internetLength_append_left s (by omega)]
    exact h.internetLength
  · rw [ho, be16_append_left s (by omega), h.fragment]
  · rw [ho, at8_append_left s (by omega), h.protocol]

namespace HeaderAt

variable {start start' needed' : Nat}

/-- Later octets do not move a header. -/
theorem append (h : b.HeaderAt layer start needed) : HeaderAt (b ++ s) layer start needed := by
  have hle {n : Nat} (h : n ≤ b.length) : n ≤ (b ++ s).length := by
    rw [List.length_append]
    exact Nat.le_add_right_of_le h
  cases h with
  | ethernet => exact .ethernet
  | tag there outer => exact .tag (hle there) ((isVlan_append_left s there).trans outer)
  | innerTag there outer inner =>
    exact .innerTag (hle there) ((isVlan_append_left s (by omega)).trans outer)
      ((isVlan_append_left s there).trans inner)
  | ipv4 there etherType =>
    rw [← networkOffset_append_left s there]
    refine .ipv4 ?_ ((etherType_append_left s there).trans etherType)
    rw [networkOffset_append_left s there]
    exact hle there
  | options there etherType version internetLength =>
    have hl : b.networkOffset < b.length := Nat.lt_of_lt_of_le (Nat.lt_add_of_pos_right (by decide)) there
    have ho := networkOffset_append_left s (Nat.le_of_lt hl)
    rw [← ho, ← internetLength_append_left s hl]
    refine .options ?_ ((etherType_append_left s (Nat.le_of_lt hl)).trans etherType)
      ((version_append_left s hl).trans version) ?_
    · rw [ho]
      exact hle there
    · rw [internetLength_append_left s hl]
      exact internetLength
  | tcp there announced version =>
    have hmin : 20 ≤ b.internetLength := announced.internetLength
    have hl : b.networkOffset + 20 ≤ b.length := Nat.le_trans (Nat.add_le_add_left hmin _) there
    rw [← segmentOffset_append_left s (by omega)]
    refine .tcp ?_ (announced.append s hl) ((version_append_left s (by omega)).trans version)
    rw [segmentOffset_append_left s (by omega)]
    exact hle there

/-- A header that is not a tag has one place. -/
theorem start_unique (h : b.HeaderAt layer start needed) (h' : b.HeaderAt layer start' needed')
    (hlayer : layer ≠ .vlan) : start = start' := by
  cases h <;> cases h' <;> first | rfl | exact absurd rfl hlayer

/-- Of two tags the later one is announced by the end of the first. -/
theorem isVlan_of_lt (h : b.HeaderAt .vlan start needed) (h' : b.HeaderAt .vlan start' needed') (hlt : start < start') :
    start = 14 ∧ start' = 18 ∧ isVlan (b.be16 16) = true := by
  cases h with
  | tag => cases h' with
    | tag => exact absurd hlt (Nat.lt_irrefl 14)
    | innerTag there outer inner => exact ⟨rfl, rfl, inner⟩
  | innerTag => cases h' <;> omega

end HeaderAt

end Octets

theorem Octets.at8_append_replicate {b : Octets} {i n : Nat} {x : UInt8} (h : b.length ≤ i) (hn : i < b.length + n) :
    at8 (b ++ List.replicate n x) i = x := by
  have hi : i - b.length < n := by omega
  simp [at8, List.getD_eq_getElem?_getD, List.getElem?_append_right h, hi]

/-- A frame is no longer cut off in a header that has become whole, unless in
the next one of its kind, which the octets added here do not announce. -/
theorem Frame.exists_gives_way {frame : Octets}
    (h : Frame.tuple? frame = .error (.truncated layer needed available)) :
    ∃ s : Octets, s.length = needed - available ∧
      ∀ a, Frame.tuple? (frame ++ s) ≠ .error (.truncated layer needed a) := by
  obtain ⟨start, hat, hlen, hlt⟩ := Frame.tuple?_eq_truncated_iff.1 h
  refine ⟨List.replicate (needed - available) 1, List.length_replicate, ?_⟩
  intro a h'
  obtain ⟨start', hat', hlen', hlt'⟩ := Frame.tuple?_eq_truncated_iff.1 h'
  have hat := hat.append (List.replicate (needed - available) 1)
  have hlater : start < start' := by
    rw [List.length_append, List.length_replicate] at hlen'
    omega
  by_cases hlayer : layer = .vlan
  · subst hlayer
    obtain ⟨rfl, rfl, hinner⟩ := hat.isVlan_of_lt hat' hlater
    have hneeded : needed = 4 := by cases hat; rfl
    have hlast : Octets.at8 (frame ++ List.replicate (needed - available) 1) 17 = 1 :=
      Octets.at8_append_replicate (by omega) (by omega)
    rw [Octets.isVlan_be16_iff, hlast] at hinner
    rcases hinner with ⟨-, h0⟩ | ⟨-, h0⟩ <;> exact absurd h0 (by decide)
  · exact Nat.ne_of_lt hlater (hat.start_unique hat' hlayer)

theorem Frame.tuple?_append {frame : Octets}
    (h : ∀ layer needed available, Frame.tuple? frame ≠ .error (.truncated layer needed available)) (s : Octets) :
    Frame.tuple? (frame ++ s) = Frame.tuple? frame := by
  have hs := Frame.tuple?_foretells frame s
  cases ht : Frame.tuple? frame with
  | ok t => rwa [ht] at hs
  | error e =>
    rw [ht] at hs
    cases e with
    | truncated layer needed available => exact absurd ht (h layer needed available)
    | _ => exact hs

/-- An answer that is not about missing octets is final. A truncated one names a
header of the frame and counts the octets from its start; it stays until the
rest of that header is in, and can then give way to another. -/
theorem only_truncation_gives_way (frame : Octets) :
    ((∀ layer needed available, Frame.tuple? frame ≠ .error (.truncated layer needed available)) →
      ∀ s, Frame.tuple? (frame ++ s) = Frame.tuple? frame) ∧
    ∀ layer needed available, Frame.tuple? frame = .error (.truncated layer needed available) →
      available < needed ∧
      (∃ start, frame.HeaderAt layer start needed ∧ frame.length = start + available) ∧
      (∀ s : Octets, Frame.tuple? (frame ++ s) = .error (.truncated layer needed (available + s.length)) ↔
        s.length < needed - available) ∧
      IsLeast {n | ∃ s : Octets, s.length = n ∧
        ∀ a, Frame.tuple? (frame ++ s) ≠ .error (.truncated layer needed a)} (needed - available) := by
  refine ⟨Frame.tuple?_append, ?_⟩
  intro layer needed available h
  obtain ⟨start, hat, hlen, hlt⟩ := Frame.tuple?_eq_truncated_iff.1 h
  have hstays (s : Octets) : Frame.tuple? (frame ++ s) = .error (.truncated layer needed (available + s.length)) ↔
      s.length < needed - available := by
    constructor
    · intro hs
      obtain ⟨-, -, -, hlt⟩ := Frame.tuple?_eq_truncated_iff.1 hs
      omega
    · have hf := Frame.tuple?_foretells frame s
      rw [h] at hf
      exact hf.2
  refine ⟨hlt, ⟨start, hat, hlen⟩, hstays, Frame.exists_gives_way h, ?_⟩
  rintro n ⟨s, rfl, hs⟩
  exact Nat.le_of_not_lt fun hshort => hs _ ((hstays s).2 hshort)

/-- A frame cut off after the first octet of a VLAN tag waits for three more. -/
theorem only_truncation_gives_way_within_tag :
    Frame.tuple? (List.replicate 12 0 ++ [0x81, 0x00, 0x00]) = .error (.truncated .vlan 4 1) ∧
    IsLeast {n | ∃ s : Octets, s.length = n ∧
      ∀ a, Frame.tuple? (List.replicate 12 0 ++ [0x81, 0x00, 0x00] ++ s) ≠ .error (.truncated .vlan 4 a)} 3 := by
  have h : Frame.tuple? (List.replicate 12 0 ++ [0x81, 0x00, 0x00]) = .error (.truncated .vlan 4 1) := by decide
  obtain ⟨-, -, -, hleast⟩ := (only_truncation_gives_way _).2 _ _ _ h
  exact ⟨h, hleast⟩

end Splice
