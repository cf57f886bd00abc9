/-
# TCP segments

`TcpHeader`, `SPEC_FULL.md`, section 4.2.

| offset | size | field |
| ---: | ---: | --- |
| 0 | 2 | source port |
| 2 | 2 | destination port |
| 4 | 4 | sequence number |
| 8 | 4 | acknowledgment number |
| 12 | 2 | data offset (high four bits), flags (low nine) |
| 14 | 2 | window |
| 16 | 2 | checksum |
| 18 | 2 | urgent pointer |
| 20 | … | options |

There is no connection here: a segment is a header, its options and the payload
it carries.  The data offset counts the 32-bit words of header and options.  The
header that goes on the wire is the twenty octets and the options brought to
exactly the declared length, cut or filled with zeros.  A data offset below 5 can
be stored, and then cuts into the twenty octets themselves; below 5 the checksum
field is not inside the header, so such a segment has no checksum.
-/

import RemoteMemory.Ipv4.Header

namespace RemoteMemory
namespace Tcp

/-- The flag bits, from the lowest: FIN, SYN, RST, PSH, ACK, URG. -/
inductive Flag where
  | fin
  | syn
  | rst
  | psh
  | ack
  | urg
deriving DecidableEq

/-- The bit of a flag. -/
def Flag.bit : Flag → UInt16
  | .fin => 0x0001
  | .syn => 0x0002
  | .rst => 0x0004
  | .psh => 0x0008
  | .ack => 0x0010
  | .urg => 0x0020

/-- A TCP header with its options and the payload it carries. -/
structure Segment where
  srcPort : UInt16 := 0
  dstPort : UInt16 := 0
  seqNumber : UInt32 := 0
  ackNumber : UInt32 := 0
  /-- Data offset in the high four bits, flags in the low nine. -/
  offsetAndFlags : UInt16 := 0x5000
  window : UInt16 := 65535
  checksum : UInt16 := 0
  urgentPointer : UInt16 := 0
  options : Octets := []
  payload : Octets := []
deriving DecidableEq

namespace Segment

/-- Octets of a TCP header without options. -/
def minHeaderSize : Nat := 20

/-- The header length that is declared, in 32-bit words. -/
def dataOffset (s : Segment) : Nat := s.offsetAndFlags.toNat / 4096

/-- The header length that is declared, in octets (`header_len`). -/
def headerSize (s : Segment) : Nat := 4 * s.dataOffset

/-- Octets of header and payload (`on_wire_len`). -/
def wireSize (s : Segment) : Nat := s.headerSize + s.payload.length

/-- Other options (`set_options`): they are filled with zeros to whole 32-bit words, and the
data offset becomes the number of words of header and options.  The flags stay. -/
def setOptions (s : Segment) (options : Octets) : Segment :=
  let padded := Octets.resize ((options.length + 3) / 4 * 4) options
  let words : UInt16 := .ofNat ((minHeaderSize + padded.length) / 4)
  { s with
    offsetAndFlags := (words <<< 12) ||| (s.offsetAndFlags &&& 0x01FF)
    options := padded }

/-- Other flags (`set_flags`): the low nine bits of `flags`.  The data offset stays. -/
def setFlags (s : Segment) (flags : UInt16) : Segment :=
  { s with offsetAndFlags := (s.offsetAndFlags &&& 0xF000) ||| (flags &&& 0x01FF) }

/-- Any of the given bits is set (`has_flag`). -/
def hasFlag (s : Segment) (bits : UInt16) : Bool := s.offsetAndFlags &&& bits != 0

/-- The twenty octets in front of the options. -/
def fixed (s : Segment) : Octets :=
  Octets.ofWord16 s.srcPort ++ Octets.ofWord16 s.dstPort ++ Octets.ofWord32 s.seqNumber ++
    Octets.ofWord32 s.ackNumber ++ Octets.ofWord16 s.offsetAndFlags ++ Octets.ofWord16 s.window ++
    Octets.ofWord16 s.checksum ++ Octets.ofWord16 s.urgentPointer

/-- The header as it goes on the wire (`to_bytes`), of exactly the declared length. -/
def header (s : Segment) : Octets := Octets.resize s.headerSize (s.fixed ++ s.options)

/-- The segment as it goes on the wire. -/
def octets (s : Segment) : Octets := s.header ++ s.payload

/-- The words of the header with zero in place of the checksum (`header_words`), if the
checksum field is inside the header. -/
def headerWords? (s : Segment) : Option (List UInt16) :=
  if 18 ≤ s.headerSize then
    some (Octets.words (s.header.take 16 ++ [0, 0] ++ s.header.drop 18))
  else none

/-- The checksum that the segment should carry under an IPv4 header (`calculate_checksum`),
if its header has room for one. -/
def expectedChecksum? (s : Segment) (ip : Ipv4.Header) : Option UInt16 :=
  s.headerWords?.map fun ws =>
    pseudoChecksum (ip.pseudoWords Ipv4.protocolTcp (.ofNat s.wireSize)) ws s.payload

/-- The segment with the checksum it should carry under an IPv4 header, if its
header has room for one. -/
def sealed? (s : Segment) (ip : Ipv4.Header) : Option Segment :=
  (s.expectedChecksum? ip).map fun c => { s with checksum := c }

/-- The segment an octet string holds (`from_bytes`): the declared header length covers the
twenty octets and ends inside the string. -/
def ofOctets? : Octets → Option Segment
  | s0 :: s1 :: d0 :: d1 ::
    q0 :: q1 :: q2 :: q3 ::
    a0 :: a1 :: a2 :: a3 ::
    o0 :: o1 :: w0 :: w1 ::
    c0 :: c1 :: u0 :: u1 :: rest =>
    let offsetAndFlags := Octets.word16 o0 o1
    let headerSize := 4 * (offsetAndFlags.toNat / 4096)
    if minHeaderSize ≤ headerSize ∧ headerSize ≤ minHeaderSize + rest.length then
      some { srcPort := Octets.word16 s0 s1
             dstPort := Octets.word16 d0 d1
             seqNumber := Octets.word32 q0 q1 q2 q3
             ackNumber := Octets.word32 a0 a1 a2 a3
             offsetAndFlags
             window := Octets.word16 w0 w1
             checksum := Octets.word16 c0 c1
             urgentPointer := Octets.word16 u0 u1
             options := rest.take (headerSize - minHeaderSize)
             payload := rest.drop (headerSize - minHeaderSize) }
    else none
  | _ => none

@[simp] theorem length_fixed (s : Segment) : s.fixed.length = minHeaderSize := by
  simp [fixed, minHeaderSize]

@[simp] theorem length_header (s : Segment) : s.header.length = s.headerSize := by
  simp [header]

@[simp] theorem length_octets (s : Segment) : s.octets.length = s.wireSize := by
  simp [octets, wireSize]

/-- **A segment has a checksum exactly when its data offset is at least 5.** -/
theorem isSome_headerWords? (s : Segment) : s.headerWords?.isSome ↔ 5 ≤ s.dataOffset := by
  by_cases h : 18 ≤ s.headerSize <;> simp [headerWords?, h] <;> simp [headerSize] at h <;> omega

end Segment

end Tcp
end RemoteMemory
