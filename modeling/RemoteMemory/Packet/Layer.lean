/-
# Layers

`Layer`, its `LayerKind`, `on_wire_len` and `update_checksum`, `SPEC_FULL.md`, sections 3 and 4.2.

A layer is one of the five headers, UDP and TCP with the payload they carry.
Every layer declares a length (`wireSize`), and writes itself (`octets`).  The two
agree except for an IPv4 header that declares options: it is written in 20 octets
whatever its header length says (`length_octets`).
-/

import RemoteMemory.Ethernet.Header
import RemoteMemory.Udp.Datagram
import RemoteMemory.Tcp.Segment
import RemoteMemory.Request.Header

namespace RemoteMemory

/-- A header a packet is stacked from, with the payload it carries if it carries
one. -/
inductive Layer where
  | ethernet (header : Ethernet.Header)
  | ipv4 (header : Ipv4.Header)
  | udp (datagram : Udp.Datagram)
  | tcp (segment : Tcp.Segment)
  | request (header : Request.Header)
deriving DecidableEq

namespace Layer

/-- The kind of a layer. -/
def kind : Layer → LayerKind
  | .ethernet _ => .ethernet
  | .ipv4 _ => .ipv4
  | .udp _ => .udp
  | .tcp _ => .tcp
  | .request _ => .request

/-- The layer of a kind with all fields at their defaults. -/
def ofKind : LayerKind → Layer
  | .ethernet => .ethernet {}
  | .ipv4 => .ipv4 {}
  | .udp => .udp {}
  | .tcp => .tcp {}
  | .request => .request {}

/-- Octets of the header, as declared (`header_len`). -/
def headerSize : Layer → Nat
  | .ethernet _ => Ethernet.Header.size
  | .ipv4 h => h.declaredSize
  | .udp _ => Udp.Datagram.headerSize
  | .tcp s => s.headerSize
  | .request _ => Request.Header.size

/-- Octets of the header, as declared, and of the payload it carries (`on_wire_len`). -/
def wireSize : Layer → Nat
  | .ethernet _ => Ethernet.Header.size
  | .ipv4 h => h.declaredSize
  | .udp d => d.wireSize
  | .tcp s => s.wireSize
  | .request _ => Request.Header.size

/-- The layer as it goes on the wire (`to_bytes`). -/
def octets : Layer → Octets
  | .ethernet h => h.octets
  | .ipv4 h => h.octets
  | .udp d => d.octets
  | .tcp s => s.octets
  | .request h => h.octets

/-- The layer of a kind that an octet string holds at its front. -/
def ofOctets? : LayerKind → Octets → Option Layer
  | .ethernet, bs => (Ethernet.Header.ofOctets? bs).map .ethernet
  | .ipv4, bs => (Ipv4.Header.ofOctets? bs).map .ipv4
  | .udp, bs => (Udp.Datagram.ofOctets? bs).map .udp
  | .tcp, bs => (Tcp.Segment.ofOctets? bs).map .tcp
  | .request, bs => (Request.Header.ofOctets? bs).map .request

/-- The layer with the checksum it should carry on its own (`update_checksum`).  Only an IPv4
header has one; a transport checksum needs the IPv4 header in front of it. -/
def sealed : Layer → Layer
  | .ipv4 h => .ipv4 h.sealed
  | layer => layer

/-- **A layer is written in the length it declares**, if an IPv4 header declares
no options. -/
theorem length_octets {l : Layer} (h : ∀ ip, l = .ipv4 ip → ip.ihl = 5) :
    l.octets.length = l.wireSize := by
  cases l with
  | ipv4 ip => simp [octets, wireSize, Ipv4.Header.declaredSize, Ipv4.Header.size, h ip rfl]
  | _ => simp [octets, wireSize]

/-- Octets that a stack of layers declares. -/
def totalSize : List Layer → Nat
  | [] => 0
  | l :: ls => l.wireSize + totalSize ls

theorem totalSize_append (ls ls' : List Layer) :
    totalSize (ls ++ ls') = totalSize ls + totalSize ls' := by
  induction ls with
  | nil => simp [totalSize]
  | cons l ls ih => simp [totalSize, ih, Nat.add_assoc]

end Layer

end RemoteMemory
