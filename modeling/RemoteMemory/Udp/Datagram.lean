/-
# UDP datagrams

`UdpHeader`, `SPEC_FULL.md`, section 4.2.

| offset | size | field |
| ---: | ---: | --- |
| 0 | 2 | source port |
| 2 | 2 | destination port |
| 4 | 2 | length of header and payload |
| 6 | 2 | checksum |
| 8 | … | payload |

The length field is never stored: it is the length of header and payload, cut to
16 bits.  Octets behind the declared length are not part of a datagram.
-/

import RemoteMemory.Ipv4.Header
import RemoteMemory.Udp.Port

namespace RemoteMemory
namespace Udp

/-- A UDP header with the payload it carries. -/
structure Datagram where
  srcPort : UInt16 := 0
  dstPort : UInt16 := 0
  checksum : UInt16 := 0
  payload : Octets := []
deriving DecidableEq

namespace Datagram

/-- Octets of a UDP header. -/
def headerSize : Nat := 8

/-- The source port replaced by the one a text denotes (`set_src_port`). -/
def setSourcePort (d : Datagram) (text : String) : Except Error Datagram :=
  (Port.parse text).map fun p => { d with srcPort := p }

/-- The destination port replaced by the one a text denotes (`set_dst_port`). -/
def setDestinationPort (d : Datagram) (text : String) : Except Error Datagram :=
  (Port.parse text).map fun p => { d with dstPort := p }

/-- Octets of header and payload (`on_wire_len`). -/
def wireSize (d : Datagram) : Nat := headerSize + d.payload.length

/-- The length field: header and payload, cut to 16 bits. -/
def length (d : Datagram) : UInt16 := .ofNat d.wireSize

/-- The words of the header that the checksum covers (`header_words`), with zero in place
of the checksum. -/
def headerWords (d : Datagram) : List UInt16 := [d.srcPort, d.dstPort, d.length, 0]

/-- The checksum that the datagram should carry under an IPv4 header
(`calculate_checksum`). -/
def expectedChecksum (d : Datagram) (ip : Ipv4.Header) : UInt16 :=
  pseudoChecksum (ip.pseudoWords Ipv4.protocolUdp d.length) d.headerWords d.payload

/-- The datagram with the checksum it should carry under an IPv4 header. -/
def sealed (d : Datagram) (ip : Ipv4.Header) : Datagram :=
  { d with checksum := d.expectedChecksum ip }

/-- The header as it goes on the wire (`to_bytes`). -/
def header (d : Datagram) : Octets :=
  Octets.ofWord16 d.srcPort ++ Octets.ofWord16 d.dstPort ++ Octets.ofWord16 d.length ++
    Octets.ofWord16 d.checksum

/-- The datagram as it goes on the wire. -/
def octets (d : Datagram) : Octets := d.header ++ d.payload

/-- The datagram at the front of an octet string (`from_bytes`): its declared length covers
the header and ends inside the string. -/
def ofOctets? : Octets → Option Datagram
  | s0 :: s1 :: d0 :: d1 :: l0 :: l1 :: c0 :: c1 :: rest =>
    let length := (Octets.word16 l0 l1).toNat
    if headerSize ≤ length ∧ length ≤ headerSize + rest.length then
      some { srcPort := Octets.word16 s0 s1
             dstPort := Octets.word16 d0 d1
             checksum := Octets.word16 c0 c1
             payload := rest.take (length - headerSize) }
    else none
  | _ => none

@[simp] theorem length_header (d : Datagram) : d.header.length = headerSize := by
  simp [header, headerSize]

@[simp] theorem length_octets (d : Datagram) : d.octets.length = d.wireSize := by
  simp [octets, wireSize]

end Datagram

end Udp
end RemoteMemory
