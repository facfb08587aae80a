import Splice.Egress
import Splice.Proofs.Layout
/-!
# Reads within bounds

The decoders of `Splice.Frame` read zero where no octet is and count in numbers
without a limit. A machine does neither: an index or a slice beyond the end of
the octets stops it, and so does a sum or a product that its word does not hold.
Here the decoders are written for such a machine, with every read, every slice
and every step of the arithmetic in its place. Nothing stops them: what is read
and cut lies behind a length check, of the same header or of the one in front.
-/

namespace Splice

/-- What stops the machine. -/
inductive Stop where
  | index (i length : Nat)
  | slice (start length : Nat)
  | overflow
deriving DecidableEq, Repr

/-- An unsigned word of one octet or more. -/
structure Word where
  largest : Nat
  octet : 255 ≤ largest

/-- A decoder on the machine: it answers or is stopped. -/
abbrev Guarded (α : Type) := ExceptT DecodeError (Except Stop) α

/-- What a decoded frame does to the tables. -/
def Tables.settle {S : Type} (T : Tables S) : Except DecodeError Tuple → Reaction S Egress
  | .error e => ⟨T, .skipped e, [.frameSkipped e]⟩
  | .ok t =>
    let (proxy, before) := T.proxy.disable t
    match before with
    | none => ⟨{ T with proxy }, .untracked, []⟩
    | some .disabled => ⟨{ T with proxy }, .alreadyDisabled, []⟩
    | some before => ⟨{ T with proxy }, .disabled t before, [.disabled t before]⟩

theorem Tables.onEgress_eq_settle {S : Type} (T : Tables S) (frame : Octets) :
    T.onEgress frame = T.settle (Frame.tuple? frame) := by
  rw [onEgress]
  cases Frame.tuple? frame <;> rfl

namespace Guarded

variable {α β : Type}

/-! ## Single steps -/

def stop (s : Stop) : Guarded α := ExceptT.mk (.error s)

def index (b : Octets) (i : Nat) : Guarded UInt8 :=
  if h : i < b.length then pure b[i] else stop (.index i b.length)

def slice (b : Octets) (start : Nat) : Guarded Octets :=
  if start ≤ b.length then pure (b.drop start) else stop (.slice start b.length)

/-- The front of `b`, refused where it is not there. -/
def take (b : Octets) (n : Nat) (layer : Layer) : Guarded Octets :=
  if n ≤ b.length then pure (b.take n) else throw (.truncated layer n b.length)

def add (w : Word) (x y : Nat) : Guarded Nat := if x + y ≤ w.largest then pure (x + y) else stop .overflow

def mul (w : Word) (x y : Nat) : Guarded Nat := if x * y ≤ w.largest then pure (x * y) else stop .overflow

def be16 (w : Word) (b : Octets) (i : Nat) : Guarded UInt16 := do
  let high ← index b i
  let next ← add w i 1
  let low ← index b next
  return .ofNat (high.toNat * 256 + low.toNat)

def addressAt (b : Octets) (i j k l : Nat) : Guarded Ipv4 := do
  return ⟨← index b i, ← index b j, ← index b k, ← index b l⟩

/-! ## The decoders -/

/-- The counter of the tags is an octet. -/
def tagWord : Word := ⟨255, Nat.le_refl 255⟩

def skipTags (w : Word) (frame : Octets) : Nat → EthernetHeader → Guarded EthernetHeader
  | 0, h => return h
  | n + 1, h =>
    if isVlan h.etherType then do
      -- Not a slice: what is left of the frame is asked for, and nothing where it has ended.
      let tag ← take (frame.drop h.length) vlanLength .vlan
      let etherType ← be16 w tag 2
      let length ← add w h.length vlanLength
      let tags ← add tagWord h.tags 1
      skipTags w frame n ⟨etherType, tags, length⟩
    else return h

def ethernet (w : Word) (frame : Octets) : Guarded EthernetHeader := do
  let fixed ← take frame ethernetLength .ethernet
  let etherType ← be16 w fixed 12
  skipTags w frame maxTags ⟨etherType, 0, ethernetLength⟩

def ipv4 (w : Word) (packet : Octets) : Guarded Ipv4Header := do
  let fixed ← take packet ipv4MinLength .ipv4
  let version := (← index fixed 0).toNat / 16
  if version ≠ 4 then throw (.badIpVersion version)
  else do
    let words := (← index fixed 0).toNat % 16
    let length ← mul w words 4
    if length < ipv4MinLength then throw (.badIpHeaderLength words)
    else do
      let _ ← take packet length .ipv4
      let fragment ← be16 w fixed 6
      let protocol ← index fixed 9
      let source ← addressAt fixed 12 13 14 15
      let destination ← addressAt fixed 16 17 18 19
      return ⟨length, fragment.toNat % 0x2000, protocol, source, destination⟩

def tcp (w : Word) (segment : Octets) : Guarded TcpHeader := do
  let fixed ← take segment tcpMinLength .tcp
  let words := (← index fixed 12).toNat / 16
  let length ← mul w words 4
  if length < tcpMinLength then throw (.badTcpDataOffset words)
  else return ⟨← be16 w fixed 0, ← be16 w fixed 2, length⟩

def tuple (w : Word) (frame : Octets) : Guarded Tuple := do
  let ethernet ← ethernet w frame
  if ethernet.etherType ≠ etherIpv4 then throw (.notIpv4 ethernet.etherType)
  else do
    let packet ← slice frame ethernet.length
    let ip ← ipv4 w packet
    if ip.fragmentOffset ≠ 0 then throw .fragment
    else if ip.protocol ≠ protocolTcp then throw (.notTcp ip.protocol)
    else do
      let segment ← slice packet ip.length
      let tcp ← tcp w segment
      return ⟨⟨ip.source, tcp.sourcePort⟩, ⟨ip.destination, tcp.destinationPort⟩⟩

def onEgress {S : Type} (w : Word) (T : Tables S) (frame : Octets) : Except Stop (Reaction S Egress) := do
  return T.settle (← (tuple w frame).run)

/-! ## Steps within bounds -/

section Steps

variable {b : Octets} {i n : Nat} (w : Word)

theorem index_take (hi : i < n) (hn : n ≤ b.length) : index (b.take n) i = pure (b.at8 i) := by
  have h : i < (b.take n).length := by
    rw [List.length_take]
    omega
  rw [index, dif_pos h, ← Octets.at8_take b hi]
  simp [Octets.at8, List.getD_eq_getElem?_getD, List.getElem?_eq_getElem h]

theorem slice_of_le (h : i ≤ b.length) : slice b i = pure (b.drop i) := if_pos h

theorem add_of_le {x y : Nat} (h : x + y ≤ 255) : add w x y = pure (x + y) := if_pos (Nat.le_trans h w.octet)

theorem mul_of_le {x y : Nat} (h : x * y ≤ 255) : mul w x y = pure (x * y) := if_pos (Nat.le_trans h w.octet)

theorem be16_take (hi : i + 1 < n) (hn : n ≤ b.length) (hmax : i + 1 ≤ 255) :
    be16 w (b.take n) i = pure (b.be16 i) := by
  rw [be16, index_take (Nat.lt_of_succ_lt hi) hn, pure_bind, add_of_le w hmax, pure_bind, index_take hi hn, pure_bind]
  rfl

example : (be16 tagWord [0x08] 0).run = .error (.index 1 1) := rfl

theorem addressAt_take (hi : i + 3 < n) (hn : n ≤ b.length) :
    addressAt (b.take n) i (i + 1) (i + 2) (i + 3) = pure (Ipv4Header.addressAt b i) := by
  simp (disch := omega) only [addressAt, index_take, pure_bind]
  rfl

end Steps

/-! ## Decoders that answer -/

/-- Nothing stops the machine's decoder, and its answer is the other one. -/
def Answers (x : Guarded α) (r : Except DecodeError α) : Prop := x.run = .ok r

namespace Answers

variable {x : Guarded α} {r : Except DecodeError α}

theorem bind {y : Guarded β} {s : Except DecodeError β} {f : β → Guarded α} {g : β → Except DecodeError α}
    (h : Answers y s) (hf : ∀ a, s = .ok a → Answers (f a) (g a)) : Answers (y >>= f) (s >>= g) := by
  rw [Answers, ExceptT.run_bind, h]
  cases s with
  | error e => rfl
  | ok a => exact hf a rfl

/-- Behind a length check both decoders go on with the same octets there. -/
theorem take_bind {b : Octets} {n : Nat} {layer : Layer} {f : Octets → Guarded α} {g : Unit → Except DecodeError α}
    (h : n ≤ b.length → Answers (f (b.take n)) (g ())) : Answers (take b n layer >>= f) (b.require layer n >>= g) := by
  rw [take, Octets.require]
  by_cases hn : n ≤ b.length
  · rw [if_pos hn, if_pos hn]
    exact h hn
  · rw [if_neg hn, if_neg hn]
    rfl

theorem refuse {p : Prop} [Decidable p] {e : DecodeError} (h : ¬p → Answers x r) :
    Answers (if p then throw e else x) (if p then .error e else r) := by
  by_cases hp : p
  · rw [if_pos hp, if_pos hp]
    rfl
  · rw [if_neg hp, if_neg hp]
    exact h hp

end Answers

theorem skipTags_answers (w : Word) (frame : Octets) (n : Nat) (h : EthernetHeader)
    (hl : h.length + vlanLength * n ≤ 255) (ht : h.tags + n ≤ 255) :
    Answers (skipTags w frame n h) (EthernetHeader.skipTags frame n h) := by
  induction n generalizing h with
  | zero => rfl
  | succ n ih =>
    rw [skipTags, EthernetHeader.skipTags]
    by_cases hv : isVlan h.etherType = true
    · rw [Nat.mul_succ] at hl
      rw [if_pos hv, if_pos hv]
      apply Answers.take_bind
      intro htag
      rw [be16_take w (by decide) htag (by decide), pure_bind, add_of_le w (by omega), pure_bind,
        add_of_le tagWord (by omega), pure_bind]
      apply ih
      · show h.length + vlanLength + vlanLength * n ≤ 255
        omega
      · show h.tags + 1 + n ≤ 255
        omega
    · rw [if_neg hv, if_neg hv]
      rfl

theorem ethernet_answers (w : Word) (frame : Octets) : Answers (ethernet w frame) (EthernetHeader.decode frame) := by
  apply Answers.take_bind
  intro hl
  rw [be16_take w (by decide) hl (by decide), pure_bind]
  exact skipTags_answers w frame maxTags _ (show 14 + 4 * 2 ≤ 255 by decide) (show 0 + 2 ≤ 255 by decide)

theorem ipv4_answers (w : Word) (packet : Octets) : Answers (ipv4 w packet) (Ipv4Header.decode packet) := by
  apply Answers.take_bind
  intro hl
  simp only [index_take (show 0 < ipv4MinLength by decide) hl, pure_bind]
  apply Answers.refuse
  intro hversion
  rw [mul_of_le w (show (packet.at8 0).toNat % 16 * 4 ≤ 255 by omega), pure_bind]
  apply Answers.refuse
  intro hwords
  apply Answers.take_bind
  intro hoptions
  rw [be16_take w (by decide) hl (by decide), pure_bind, index_take (by decide) hl, pure_bind,
    addressAt_take (i := 12) (by decide) hl, pure_bind, addressAt_take (i := 16) (by decide) hl, pure_bind]
  rfl

theorem tcp_answers (w : Word) (segment : Octets) : Answers (tcp w segment) (TcpHeader.decode segment) := by
  apply Answers.take_bind
  intro hl
  have := (segment.at8 12).toNat_lt
  simp only [index_take (show 12 < tcpMinLength by decide) hl, pure_bind]
  rw [mul_of_le w (show (segment.at8 12).toNat / 16 * 4 ≤ 255 by omega), pure_bind]
  apply Answers.refuse
  intro hwords
  rw [be16_take w (by decide) hl (by decide), pure_bind, be16_take w (by decide) hl (by decide), pure_bind]
  rfl

theorem tuple_answers (w : Word) (frame : Octets) : Answers (tuple w frame) (Frame.tuple? frame) := by
  apply (ethernet_answers w frame).bind
  intro ethernet he
  apply Answers.refuse
  intro htype
  rw [slice_of_le (EthernetHeader.length_le_of_decode he), pure_bind]
  apply (ipv4_answers w _).bind
  intro ip hip
  apply Answers.refuse
  intro hfragment
  apply Answers.refuse
  intro hprotocol
  rw [slice_of_le (Ipv4Header.length_le_of_decode hip), pure_bind]
  apply (tcp_answers w _).bind
  intro tcp htcp
  rfl

/-- On no octets does a decoder read or cut beyond their end or count too far
for a word, whichever word the machine has; so a frame always has its effect. -/
theorem decoders_never_stop (w : Word) :
    (∀ frame, (ethernet w frame).run = .ok (EthernetHeader.decode frame)) ∧
    (∀ packet, (ipv4 w packet).run = .ok (Ipv4Header.decode packet)) ∧
    (∀ segment, (tcp w segment).run = .ok (TcpHeader.decode segment)) ∧
    (∀ frame, (tuple w frame).run = .ok (Frame.tuple? frame)) ∧
    ∀ {S : Type} (T : Tables S) (frame : Octets), onEgress w T frame = .ok (T.onEgress frame) := by
  refine ⟨ethernet_answers w, ipv4_answers w, tcp_answers w, tuple_answers w, ?_⟩
  intro S T frame
  rw [onEgress, tuple_answers w frame, T.onEgress_eq_settle]
  rfl

end Guarded

end Splice
