import Splice.Net.Tuple
import Splice.Log.Quoted
/-!
# Egress frames

An Ethernet frame is read down to the TCP ports: the Ethernet header with up to
two VLAN tags, the IPv4 header with its options, the fixed part of the TCP
header. Each header is read from octets known to be there; a frame that is not a
complete stack of the three is refused with the reason. Payload is never looked
at. `Frame.tuple?` gives the tuple of the sending socket.
-/

namespace Splice

abbrev Octets := List UInt8

/-- A header that can turn out too short. -/
inductive Layer where
  | ethernet
  | vlan
  | ipv4
  | tcp
deriving DecidableEq, Inhabited, Repr

def Layer.name : Layer → String
  | .ethernet => "ethernet"
  | .vlan => "vlan"
  | .ipv4 => "ipv4"
  | .tcp => "tcp"

/-- Why a frame has no TCP tuple. -/
inductive DecodeError where
  /-- A header needs more octets than are left from its start. -/
  | truncated (layer : Layer) (needed available : Nat)
  | notIpv4 (etherType : UInt16)
  | badIpVersion (version : Nat)
  | badIpHeaderLength (words : Nat)
  | fragment
  | notTcp (protocol : UInt8)
  | badTcpDataOffset (words : Nat)
deriving DecidableEq, Inhabited, Repr

/-- A number in at least four hexadecimal digits. -/
def hex4 (n : Nat) : String :=
  let digits := Log.hexChars n
  String.ofList (List.replicate (4 - digits.length) '0' ++ digits)

def DecodeError.message : DecodeError → String
  | .truncated layer needed available =>
    layer.name ++ " header truncated: need " ++ Decimal.text needed ++ " bytes, have " ++ Decimal.text available
  | .notIpv4 etherType => "not an IPv4 frame (ethertype 0x" ++ hex4 etherType.toNat ++ ")"
  | .badIpVersion version => "IP version " ++ Decimal.text version ++ " in an IPv4 frame"
  | .badIpHeaderLength words => "invalid IPv4 header length " ++ Decimal.text words
  | .fragment => "non-first IPv4 fragment carries no TCP header"
  | .notTcp protocol => "not TCP (IP protocol " ++ Decimal.text protocol.toNat ++ ")"
  | .badTcpDataOffset words => "invalid TCP data offset " ++ Decimal.text words

/-! ## Reading octets -/

namespace Octets

/-- The octet at `i`. -/
def at8 (b : Octets) (i : Nat) : UInt8 := b.getD i 0

/-- The two octets at `i`, the first one leading. -/
def be16 (b : Octets) (i : Nat) : UInt16 := .ofNat ((b.at8 i).toNat * 256 + (b.at8 (i + 1)).toNat)

/-- The upper four bits of the octet at `i`. -/
def high4 (b : Octets) (i : Nat) : Nat := (b.at8 i).toNat / 16

/-- The lower four bits of the octet at `i`. -/
def low4 (b : Octets) (i : Nat) : Nat := (b.at8 i).toNat % 16

/-- Refuses a run of octets shorter than a header of the layer. -/
def require (b : Octets) (layer : Layer) (n : Nat) : Except DecodeError Unit :=
  if n ≤ b.length then .ok () else .error (.truncated layer n b.length)

end Octets

/-! ## Ethernet -/

/-- Length of an Ethernet header without tags. -/
def ethernetLength : Nat := 14
/-- Length of a VLAN tag. -/
def vlanLength : Nat := 4
/-- Length of an IPv4 header without options. -/
def ipv4MinLength : Nat := 20
/-- Length of a TCP header without options. -/
def tcpMinLength : Nat := 20
/-- The ethertype of IPv4. -/
def etherIpv4 : UInt16 := 0x0800
/-- The ethertype of a customer VLAN tag. -/
def etherVlan : UInt16 := 0x8100
/-- The ethertype of a service VLAN tag. -/
def etherServiceVlan : UInt16 := 0x88A8
/-- The IP protocol number of TCP. -/
def protocolTcp : UInt8 := 6
/-- How many stacked tags are read. -/
def maxTags : Nat := 2

def isVlan (etherType : UInt16) : Bool := etherType == etherVlan || etherType == etherServiceVlan

structure EthernetHeader where
  /-- The ethertype after any tags. -/
  etherType : UInt16
  tags : Nat
  /-- Offset of the network header. -/
  length : Nat
deriving DecidableEq, Inhabited, Repr

namespace EthernetHeader

/-- Reads up to `n` further tags behind the header read so far. -/
def skipTags (frame : Octets) : Nat → EthernetHeader → Except DecodeError EthernetHeader
  | 0, h => .ok h
  | n + 1, h =>
    if isVlan h.etherType then do
      let tag := frame.drop h.length
      Octets.require tag .vlan vlanLength
      skipTags frame n ⟨Octets.be16 tag 2, h.tags + 1, h.length + vlanLength⟩
    else .ok h

def decode (frame : Octets) : Except DecodeError EthernetHeader := do
  Octets.require frame .ethernet ethernetLength
  skipTags frame maxTags ⟨Octets.be16 frame 12, 0, ethernetLength⟩

end EthernetHeader

/-! ## IPv4 -/

structure Ipv4Header where
  length : Nat
  fragmentOffset : Nat
  protocol : UInt8
  source : Ipv4
  destination : Ipv4
deriving DecidableEq, Inhabited, Repr

namespace Ipv4Header

/-- The address at octet `i`. -/
def addressAt (b : Octets) (i : Nat) : Ipv4 :=
  ⟨Octets.at8 b i, Octets.at8 b (i + 1), Octets.at8 b (i + 2), Octets.at8 b (i + 3)⟩

def decode (packet : Octets) : Except DecodeError Ipv4Header := do
  Octets.require packet .ipv4 ipv4MinLength
  let version := Octets.high4 packet 0
  let words := Octets.low4 packet 0
  if version ≠ 4 then .error (.badIpVersion version)
  else if words * 4 < ipv4MinLength then .error (.badIpHeaderLength words)
  else do
    Octets.require packet .ipv4 (words * 4)
    .ok {
      length := words * 4
      fragmentOffset := (Octets.be16 packet 6).toNat % 0x2000
      protocol := Octets.at8 packet 9
      source := addressAt packet 12
      destination := addressAt packet 16 }

end Ipv4Header

/-! ## TCP -/

structure TcpHeader where
  sourcePort : UInt16
  destinationPort : UInt16
  length : Nat
deriving DecidableEq, Inhabited, Repr

namespace TcpHeader

def decode (segment : Octets) : Except DecodeError TcpHeader := do
  Octets.require segment .tcp tcpMinLength
  let words := Octets.high4 segment 12
  if words * 4 < tcpMinLength then .error (.badTcpDataOffset words)
  else .ok ⟨Octets.be16 segment 0, Octets.be16 segment 2, words * 4⟩

end TcpHeader

/-! ## The whole frame -/

/-- The tuple of the socket that sent a frame: its source is the socket's own
endpoint. -/
def Frame.tuple? (frame : Octets) : Except DecodeError Tuple := do
  let ethernet ← EthernetHeader.decode frame
  if ethernet.etherType ≠ etherIpv4 then .error (.notIpv4 ethernet.etherType)
  else do
    let packet := frame.drop ethernet.length
    let ip ← Ipv4Header.decode packet
    if ip.fragmentOffset ≠ 0 then .error .fragment
    else if ip.protocol ≠ protocolTcp then .error (.notTcp ip.protocol)
    else do
      let tcp ← TcpHeader.decode (packet.drop ip.length)
      .ok ⟨⟨ip.source, tcp.sourcePort⟩, ⟨ip.destination, tcp.destinationPort⟩⟩

end Splice
