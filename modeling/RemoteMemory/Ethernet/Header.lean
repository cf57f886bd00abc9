/-
# The link header

`EthernetHeader`, `SPEC_FULL.md`, section 4.2.

| offset | size | field |
| ---: | ---: | --- |
| 0 | 6 | destination address |
| 6 | 6 | source address |
| 12 | 2 | type of what follows |

Every frame starts with this header, those of the IPv4 path and those that carry
a memory request alike.  It is read from any octet string of at least 14 octets
(`ofOctets?`), whatever follows it.
-/

import RemoteMemory.Ethernet.Mac

namespace RemoteMemory
namespace Ethernet

/-- The type of frames that carry IPv4; also the default of every configuration. -/
def typeIpv4 : UInt16 := 0x0800

/-- The link header. -/
structure Header where
  dst : Mac := .zero
  src : Mac := .zero
  ethertype : UInt16 := typeIpv4
deriving DecidableEq

namespace Header

/-- Octets of a link header. -/
def size : Nat := 14

/-- A header from one station to another. -/
def between (src dst : Mac) (ethertype : UInt16) : Header :=
  { dst, src, ethertype }

/-- Put the address that a text denotes into a header; the result, and the header
afterwards.  A text that denotes no address puts nothing there. -/
def putMac (put : Header → Mac → Header) (h : Header) (text : String) :
    Except Error Unit × Header :=
  match Mac.parse text with
  | .ok m => (.ok (), put h m)
  | .error cause => (.error cause, h)

/-- Put the address that a text denotes into the source field (`set_src_mac`). -/
def putSource : Header → String → Except Error Unit × Header :=
  putMac fun h m => { h with src := m }

/-- Put the address that a text denotes into the destination field (`set_dst_mac`). -/
def putDestination : Header → String → Except Error Unit × Header :=
  putMac fun h m => { h with dst := m }

/-- The header with the source address that a text denotes. -/
def setSource (h : Header) (text : String) : Except Error Header :=
  let (result, h) := h.putSource text
  result.map fun _ => h

/-- The header with the destination address that a text denotes. -/
def setDestination (h : Header) (text : String) : Except Error Header :=
  let (result, h) := h.putDestination text
  result.map fun _ => h

/-- The header as it goes on the wire (`to_bytes`). -/
def octets (h : Header) : Octets :=
  h.dst.octets ++ h.src.octets ++ Octets.ofWord16 h.ethertype

/-- The header at the front of an octet string (`from_bytes`). -/
def ofOctets? : Octets → Option Header
  | d0 :: d1 :: d2 :: d3 :: d4 :: d5 ::
    s0 :: s1 :: s2 :: s3 :: s4 :: s5 ::
    t0 :: t1 :: _ =>
    some { dst := ⟨d0, d1, d2, d3, d4, d5⟩
           src := ⟨s0, s1, s2, s3, s4, s5⟩
           ethertype := Octets.word16 t0 t1 }
  | _ => none

@[simp] theorem length_octets (h : Header) : h.octets.length = size := by
  simp [octets, size]

/-- **A written header reads back**, whatever follows it. -/
theorem ofOctets?_octets_append (h : Header) (rest : Octets) :
    ofOctets? (h.octets ++ rest) = some h := by
  obtain ⟨a, b, hw, hr⟩ := Octets.exists_word16 h.ethertype
  simp [octets, hw, Mac.octets, ofOctets?, hr]

/-- **A read header is written as it was read.** -/
theorem octets_of_ofOctets? {bs : Octets} {h : Header} (hr : ofOctets? bs = some h) :
    bs = h.octets ++ bs.drop size := by
  unfold ofOctets? at hr
  split at hr
  · obtain rfl := Option.some.inj hr
    simp [octets, Mac.octets, size]
  · simp at hr

/-- **Every string of at least 14 octets has a header at its front.** -/
theorem isSome_ofOctets?_iff {bs : Octets} : (ofOctets? bs).isSome ↔ size ≤ bs.length := by
  constructor
  · intro h
    obtain ⟨header, hr⟩ := Option.isSome_iff_exists.1 h
    rw [octets_of_ofOctets? hr, List.length_append, length_octets]
    omega
  · intro h
    change 14 ≤ bs.length at h
    have hbs : bs[0] :: bs[1] :: bs[2] :: bs[3] :: bs[4] :: bs[5] :: bs[6] :: bs[7] :: bs[8] ::
        bs[9] :: bs[10] :: bs[11] :: bs[12] :: bs[13] :: bs.drop 14 = bs := by
      simp only [List.getElem_cons_drop, List.drop_zero]
    rw [← hbs]
    rfl

end Header

end Ethernet
end RemoteMemory
