/-
# Lengths and checksums of a packet

`update_checksums`, `SPEC_FULL.md`, section 4.4.

Before a packet goes out every IPv4 header gets its total length — its declared
header length and all that follows, cut to 16 bits — and its header checksum, and
a UDP datagram or TCP segment directly behind an IPv4 header gets the checksum
over that header's pseudo header.  A transport layer anywhere else keeps the
checksum it has.

The pass runs from the outermost layer inward and carries along the IPv4 header
directly in front, already finished.  It has no result when a TCP segment that
needs a checksum has a header too short to hold one.
-/

import RemoteMemory.Packet.Basic

namespace RemoteMemory

/-- The IPv4 header in front of some layers, with their length and its checksum. -/
def Ipv4.Header.sealedOver (h : Ipv4.Header) (rest : List Layer) : Ipv4.Header :=
  { h with totalLength := .ofNat (h.declaredSize + Layer.totalSize rest) : Ipv4.Header }.sealed

namespace Layer

/-- The layers with lengths and checksums filled in, given the finished IPv4 header
directly in front of them, if there is one. -/
def sealAll? : Option Ipv4.Header → List Layer → Option (List Layer)
  | _, [] => some []
  | _, .ipv4 h :: rest =>
    (sealAll? (some (h.sealedOver rest)) rest).map (.ipv4 (h.sealedOver rest) :: ·)
  | some ip, .udp d :: rest => (sealAll? none rest).map (.udp (d.sealed ip) :: ·)
  | some ip, .tcp s :: rest =>
    match s.sealed? ip with
    | some s => (sealAll? none rest).map (.tcp s :: ·)
    | none => none
  | _, layer :: rest => (sealAll? none rest).map (layer :: ·)

end Layer

namespace Packet

/-- The packet with all lengths and checksums filled in (`update_checksums`).  There is none
if a TCP segment directly behind an IPv4 header has no room for its checksum. -/
def sealed? (p : Packet) : Option Packet := (Layer.sealAll? none p.layers).map Packet.mk

end Packet

end RemoteMemory
