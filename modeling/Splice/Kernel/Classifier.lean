import Splice.Kernel.Maps
import Splice.Frame
/-!
# The egress classifier

Runs on every frame that leaves by an interface. It loads fixed-size pieces of
the frame at computed offsets, each load failing when it would reach past the
frame's end, and compares fields as the loads give them: network order read on a
little-endian host. A frame of a tracked connection disables its proxy row.
-/

namespace Splice.Kernel

/-- The return value that lets a frame go on. -/
def passFrame : UInt32 := 0

namespace Load

/-- `n` octets at an offset, if the frame holds them all. -/
def octets? (frame : Octets) (offset n : Nat) : Option Octets :=
  if offset + n ≤ frame.length then some ((frame.drop offset).take n) else none

/-- Two octets as a little-endian word. -/
def le16 (b : Octets) (i : Nat) : UInt16 :=
  .ofNat ((Octets.at8 b i).toNat + (Octets.at8 b (i + 1)).toNat * 256)

/-- Four octets as a little-endian word. -/
def le32 (b : Octets) (i : Nat) : UInt32 :=
  wordOfOctets (Octets.at8 b i) (Octets.at8 b (i + 1)) (Octets.at8 b (i + 2)) (Octets.at8 b (i + 3))

/-- A 16-bit word at an offset of the frame. -/
def word16? (frame : Octets) (offset : Nat) : Option UInt16 := (octets? frame offset 2).map (le16 · 0)

end Load

/-- A 16-bit word with its octets exchanged. -/
def swap16 (w : UInt16) : UInt16 := .ofNat (w.toNat / 256 + w.toNat % 256 * 256)

/-- A field holds one of the two VLAN ethertypes. -/
def isVlanWord (w : UInt16) : Bool := w == swap16 etherVlan || w == swap16 etherServiceVlan

/-- Reads one VLAN tag if there is one: the ethertype behind it and the offset
after it. -/
def skipTag (frame : Octets) (etherType : UInt16) (offset : Nat) : Option (UInt16 × Nat) :=
  if isVlanWord etherType then do
    let next ← Load.word16? frame (offset + 2)
    return (next, offset + vlanLength)
  else some (etherType, offset)

/-- The key under which the classifier looks up the frame's proxy row, for a
frame that gets so far. -/
def classifierKey? (frame : Octets) : Option RawTuple := do
  let etherType ← Load.word16? frame 12
  let (etherType, offset) ← skipTag frame etherType ethernetLength
  let (etherType, offset) ← skipTag frame etherType offset
  if etherType ≠ swap16 etherIpv4 then none
  else do
    let ip ← Load.octets? frame offset ipv4MinLength
    let length := Octets.low4 ip 0 * 4
    if Octets.at8 ip 9 ≠ protocolTcp ∨ Load.le16 ip 6 &&& swap16 0x1FFF ≠ 0 then none
    else if length < ipv4MinLength then none
    else do
      let ports ← Load.octets? frame (offset + length) 4
      return ⟨⟨Load.le32 ip 12, (swap16 (Load.le16 ports 0)).toUInt32⟩,
        ⟨Load.le32 ip 16, (swap16 (Load.le16 ports 2)).toUInt32⟩⟩

/-- Disables the row of `key` if there is one. -/
def Maps.disable {S : Type} (m : Maps S) (key : RawTuple) : Maps S :=
  match m.proxy[key]? with
  | none => m
  | some entry =>
    if entry.flag = ProxyState.disabled.flag then m
    else { m with proxy := m.proxy.insert key { entry with flag := ProxyState.disabled.flag } }

/-- The egress classifier. -/
def classify {S : Type} (m : Maps S) (frame : Octets) : Outcome S :=
  match classifierKey? frame with
  | none => { maps := m, value := passFrame }
  | some key => { maps := m.disable key, value := passFrame }

end Splice.Kernel
