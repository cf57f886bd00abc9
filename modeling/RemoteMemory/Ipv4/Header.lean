/-
# The IPv4 header

`Ipv4Header`, `SPEC_FULL.md`, section 4.2.

| offset | size | field |
| ---: | ---: | --- |
| 0 | 1 | version (high four bits), header length in 32-bit words (low four) |
| 1 | 1 | type of service |
| 2 | 2 | total length |
| 4 | 2 | identification |
| 6 | 2 | flags and fragment offset |
| 8 | 1 | time to live |
| 9 | 1 | protocol of what follows |
| 10 | 2 | header checksum |
| 12 | 4 | source address |
| 16 | 4 | destination address |

Exactly these 20 octets are written, whatever header length is declared.
`version` and `ihl` are kept as whole octets: on the wire `version` loses its
high four bits and `ihl` is merged in as it is, while the checksum is computed
with both cut to four bits.
-/

import RemoteMemory.Checksum
import RemoteMemory.Ipv4.Address

namespace RemoteMemory
namespace Ipv4

/-- The protocol number of TCP. -/
def protocolTcp : UInt8 := 6

/-- The protocol number of UDP. -/
def protocolUdp : UInt8 := 17

/-- The IPv4 header. -/
structure Header where
  version : UInt8 := 4
  /-- Header length in 32-bit words. -/
  ihl : UInt8 := 5
  tos : UInt8 := 0
  totalLength : UInt16 := 0
  id : UInt16 := 0
  flagsFragment : UInt16 := 0
  ttl : UInt8 := 64
  protocol : UInt8 := protocolUdp
  checksum : UInt16 := 0
  src : Address := .zero
  dst : Address := .zero
deriving DecidableEq

namespace Header

/-- Octets of an IPv4 header on the wire. -/
def size : Nat := 20

/-- A header for a protocol from one address to another. -/
def carrying (protocol : UInt8) (src dst : Address) : Header :=
  { protocol, src, dst }

/-- The source address replaced by the one a text denotes (`set_src_addr`). -/
def setSource (h : Header) (text : String) : Except Error Header :=
  (Address.parse text).map fun a => { h with src := a }

/-- The destination address replaced by the one a text denotes (`set_dst_addr`). -/
def setDestination (h : Header) (text : String) : Except Error Header :=
  (Address.parse text).map fun a => { h with dst := a }

/-- The header length that is declared, in octets (`header_len`). -/
def declaredSize (h : Header) : Nat := 4 * h.ihl.toNat

/-- The words that the header checksum covers (`checksum_words`), with a given total length
and with zero in place of the checksum. -/
def checksumWords (h : Header) (totalLength : UInt16) : List UInt16 :=
  [(h.version.toUInt16 <<< 12) ||| ((h.ihl &&& 0x0F).toUInt16 <<< 8) ||| h.tos.toUInt16,
    totalLength, h.id, h.flagsFragment, (h.ttl.toUInt16 <<< 8) ||| h.protocol.toUInt16, 0] ++
    h.src.words ++ h.dst.words

/-- The packed words are those of the octets they are packed of. -/
theorem checksumWords_eq (h : Header) (totalLength : UInt16) :
    h.checksumWords totalLength =
      [Octets.word16 ((h.version <<< 4) ||| (h.ihl &&& 0x0F)) h.tos, totalLength, h.id,
        h.flagsFragment, Octets.word16 h.ttl h.protocol, 0] ++ h.src.words ++ h.dst.words := by
  rw [Octets.word16_shiftLeft_or, Octets.word16_eq_or]
  rfl

/-- The checksum that the header should carry (`calculate_checksum`). -/
def expectedChecksum (h : Header) : UInt16 := wordChecksum (h.checksumWords h.totalLength)

/-- The header carries the checksum it should (`has_valid_checksum`). -/
def hasValidChecksum (h : Header) : Bool := h.expectedChecksum == h.checksum

/-- The header with the checksum it should carry. -/
def sealed (h : Header) : Header := { h with checksum := h.expectedChecksum }

/-- The words that a transport checksum covers beside the segment (`pseudo_header_words`):
both addresses, the protocol and the length of the segment. -/
def pseudoWords (h : Header) (protocol : UInt8) (length : UInt16) : List UInt16 :=
  h.src.words ++ h.dst.words ++ [protocol.toUInt16, length]

/-- The header as it goes on the wire (`to_bytes`). -/
def octets (h : Header) : Octets :=
  [(h.version <<< 4) ||| h.ihl, h.tos] ++ Octets.ofWord16 h.totalLength ++ Octets.ofWord16 h.id ++
    Octets.ofWord16 h.flagsFragment ++ [h.ttl, h.protocol] ++ Octets.ofWord16 h.checksum ++
    h.src.octets ++ h.dst.octets

/-- The header at the front of an octet string (`from_bytes`).  Only version 4 is read. -/
def ofOctets? : Octets → Option Header
  | v :: tos :: l0 :: l1 :: i0 :: i1 :: f0 :: f1 ::
    ttl :: protocol :: c0 :: c1 ::
    s0 :: s1 :: s2 :: s3 ::
    d0 :: d1 :: d2 :: d3 :: _ =>
    if v >>> 4 = 4 then
      some { version := v >>> 4
             ihl := v &&& 0x0F
             tos
             totalLength := Octets.word16 l0 l1
             id := Octets.word16 i0 i1
             flagsFragment := Octets.word16 f0 f1
             ttl
             protocol
             checksum := Octets.word16 c0 c1
             src := ⟨s0, s1, s2, s3⟩
             dst := ⟨d0, d1, d2, d3⟩ }
    else none
  | _ => none

@[simp] theorem length_octets (h : Header) : h.octets.length = size := by
  simp [octets, size]

end Header

end Ipv4
end RemoteMemory
