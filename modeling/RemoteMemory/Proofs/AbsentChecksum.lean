/-
# The checksum that reads as none

The UDP checksum of `update_checksums`, `SPEC_FULL.md`, section 4.4.

In a UDP header the checksum 0 stands for no checksum at all, and a receiver that finds it does not
verify.  A checksum that comes out as 0 is to be sent as all ones, the other zero, which verifies
just as well.  The checksum pass does not do that: it fills in what it computes.

The words under the checksum of a datagram sum to something positive, since the protocol and the
length are among them (`Udp.Datagram.total_coveredWords`).  So the checksum is never all ones, and
it is 0 exactly if the sum is a multiple of 65535 (`Udp.Datagram.expectedChecksum_eq_zero_iff`).
No address, port or payload rules that out: with the rest of a datagram given, some source port
makes it so (`Udp.Datagram.exists_srcPort_expectedChecksum_eq_zero`).
-/

import Mathlib
import RemoteMemory.Proofs.Receiver

namespace RemoteMemory

open Checksum

namespace Udp.Datagram

/-- The length field of a datagram of up to 65535 octets is its length. -/
theorem toNat_length {d : Datagram} (h : d.payload.length ≤ 65527) :
    d.length.toNat = d.wireSize := by
  rw [length, UInt16.toNat_ofNat']
  refine Nat.mod_eq_of_lt ?_
  change 8 + d.payload.length < 65536
  omega

/-- **What the checksum of a datagram sums:** both addresses, the protocol, the length twice, both
ports, and the payload. -/
theorem total_coveredWords {d : Datagram} (h : d.payload.length ≤ 65527) (ip : Ipv4.Header) :
    total (d.coveredWords ip) =
      total ip.src.words + total ip.dst.words + 17 + 2 * d.wireSize + d.srcPort.toNat +
        d.dstPort.toNat + total d.payload.words := by
  have hprotocol : Ipv4.protocolUdp.toUInt16.toNat = 17 := rfl
  simp only [coveredWords, Ipv4.Header.pseudoWords, headerWords, total_append, total_cons,
    total_nil, toNat_length h, hprotocol, UInt16.toNat_zero]
  omega

theorem total_coveredWords_pos {d : Datagram} (h : d.payload.length ≤ 65527) (ip : Ipv4.Header) :
    0 < total (d.coveredWords ip) := by
  rw [total_coveredWords h]
  omega

/-- **The checksum of a datagram is 0** exactly if the sum under it is a multiple of 65535. -/
theorem expectedChecksum_eq_zero_iff {d : Datagram} (h : d.payload.length ≤ 65527)
    (ip : Ipv4.Header) :
    d.expectedChecksum ip = 0 ↔ total (d.coveredWords ip) % 65535 = 0 := by
  rw [d.expectedChecksum_eq, wordChecksum_eq_zero_iff (d.fits_coveredWords (by omega) ip)]
  exact and_iff_right (total_coveredWords_pos h ip)

/-- The checksum of a datagram is never all ones. -/
theorem expectedChecksum_ne_ones {d : Datagram} (h : d.payload.length ≤ 65527)
    (ip : Ipv4.Header) : d.expectedChecksum ip ≠ 0xFFFF := by
  have hpos := total_coveredWords_pos h ip
  rw [d.expectedChecksum_eq, ne_eq, ← UInt16.toNat_inj,
    toNat_wordChecksum (d.fits_coveredWords (by omega) ip), residue, if_neg hpos.ne',
    show (0xFFFF : UInt16).toNat = 65535 from rfl]
  omega

/-- The other zero in place of a checksum 0 verifies too. -/
theorem checksum_covered_ones {d : Datagram} (h : d.payload.length ≤ 65535) {ip : Ipv4.Header}
    (hzero : d.expectedChecksum ip = 0) :
    RemoteMemory.checksum (ip.covered Ipv4.protocolUdp d.length
      ({ d with checksum := 0xFFFF } : Datagram).octets) = 0 := by
  let ones : Datagram := { d with checksum := 0xFFFF }
  have hpayload : ones.payload.length ≤ 65535 := h
  have hother : ones.expectedChecksum ip = 0 := hzero
  exact (checksum_covered_eq_zero_iff hpayload ip).2 (.inr ⟨hother, rfl⟩)

/-- The source port is one of the words summed. -/
theorem total_coveredWords_srcPort (d : Datagram) (port : UInt16) (ip : Ipv4.Header) :
    total (({ d with srcPort := port } : Datagram).coveredWords ip) =
      port.toNat + total (({ d with srcPort := 0 } : Datagram).coveredWords ip) := by
  simp only [coveredWords, headerWords, length, wireSize, total_append, total_cons, total_nil,
    UInt16.toNat_zero]
  omega

/-- **Some source port makes the checksum 0,** whatever the rest of the datagram is. -/
theorem exists_srcPort_expectedChecksum_eq_zero {d : Datagram} (h : d.payload.length ≤ 65527)
    (ip : Ipv4.Header) :
    ∃ port, ({ d with srcPort := port } : Datagram).expectedChecksum ip = 0 := by
  obtain ⟨rest, hrest⟩ :
      ∃ n, total (({ d with srcPort := 0 } : Datagram).coveredWords ip) = n := ⟨_, rfl⟩
  -- the port that fills the rest up to the next multiple of 65535
  let port : UInt16 := .ofNat (65535 - rest % 65535)
  have hport : port.toNat = (65535 - rest % 65535) % 2 ^ 16 := UInt16.toNat_ofNat'
  have hlength : ({ d with srcPort := port } : Datagram).payload.length ≤ 65527 := h
  refine ⟨port, ?_⟩
  rw [expectedChecksum_eq_zero_iff hlength, total_coveredWords_srcPort, hrest, hport]
  omega

end Udp.Datagram

namespace Packet

/-- **When a computed checksum reads as none.**  Of a datagram directly behind an IPv4 header, with
up to 65527 octets of payload, the pass fills in a checksum that is 0 exactly if the words under it
sum to a multiple of 65535, and never one of all ones.  A receiver that sums them finds 0; and where
the checksum is 0 it would do so too if all ones had been filled in.  No datagram is safe by the
rest of its fields: some source port brings the sum to such a multiple. -/
theorem datagram_checksum_zero_iff (p q : Packet) (h : p.sealed? = some q) (i : ℕ)
    (ip : Ipv4.Header) (d : Udp.Datagram) (hip : p.layers[i]? = some (.ipv4 ip))
    (hd : p.layers[i + 1]? = some (.udp d)) (hlength : d.payload.length ≤ 65527) :
    ∃ d' : Udp.Datagram, q.layers[i + 1]? = some (.udp d') ∧
      (d'.checksum = 0 ↔
        (total ip.src.words + total ip.dst.words + 17 + 2 * (8 + d.payload.length) +
          d.srcPort.toNat + d.dstPort.toNat + total d.payload.words) % 65535 = 0) ∧
      d'.checksum ≠ 0xFFFF ∧
      checksum (ip.covered 17 d'.length d'.octets) = 0 ∧
      (d'.checksum = 0 → checksum
        (ip.covered 17 d'.length ({ d' with checksum := 0xFFFF } : Udp.Datagram).octets) = 0) ∧
      ∃ port, ({ d with srcPort := port } : Udp.Datagram).expectedChecksum ip = 0 := by
  have hfilled := filledIn_of_sealed? h
  obtain ⟨ip', hip', hsrc, hdst, -⟩ := hfilled.exists_header hip
  have hd' := hfilled.udp i ip' d hip' hd
  have hunder : d.expectedChecksum ip' = d.expectedChecksum ip := by
    simp only [Udp.Datagram.expectedChecksum, Ipv4.Header.pseudoWords, hsrc, hdst]
  rw [hunder] at hd'
  -- what is filled in leaves the payload alone, and no checksum is part of what it sums
  let d' : Udp.Datagram := { d with checksum := d.expectedChecksum ip }
  have hpayload : d'.payload.length ≤ 65535 := by
    change d.payload.length ≤ 65535
    omega
  have hzero := Udp.Datagram.expectedChecksum_eq_zero_iff hlength ip
  rw [Udp.Datagram.total_coveredWords hlength] at hzero
  exact ⟨d', hd', hzero, Udp.Datagram.expectedChecksum_ne_ones hlength ip,
    Udp.Datagram.checksum_covered hpayload rfl, Udp.Datagram.checksum_covered_ones hpayload,
    Udp.Datagram.exists_srcPort_expectedChecksum_eq_zero hlength ip⟩

/-- A datagram with an odd payload whose checksum is computed as 0. -/
theorem datagram_checksum_zero_iff_odd_payload :
    let ip : Ipv4.Header := { src := ⟨10, 0, 0, 1⟩, dst := ⟨10, 0, 0, 2⟩ }
    let d : Udp.Datagram := { srcPort := 33644, dstPort := 53, payload := [0x12, 0x34, 0x56] }
    let p : Packet := ⟨[.ethernet {}, .ipv4 ip, .udp d]⟩
    p.layers[1]? = some (.ipv4 ip) ∧ p.layers[2]? = some (.udp d) ∧ d.payload.length ≤ 65527 ∧
    ∃ q, p.sealed? = some q ∧ ∃ d' : Udp.Datagram, q.layers[2]? = some (.udp d') ∧
      d'.checksum = 0 ∧
      checksum (ip.covered 17 d'.length ({ d' with checksum := 0xFFFF } : Udp.Datagram).octets) =
        0 := by
  intro ip d p
  have hsome : p.sealed?.isSome := rfl
  obtain ⟨q, hq⟩ := Option.isSome_iff_exists.1 hsome
  obtain ⟨d', hd', hzero, -, -, hones, -⟩ :=
    datagram_checksum_zero_iff p q hq 1 ip d rfl rfl (by decide)
  have hchecksum : d'.checksum = 0 := hzero.2 (by decide)
  exact ⟨rfl, rfl, by decide, q, hq, d', hd', hchecksum, hones hchecksum⟩

/-- **The pass fills in the checksum that reads as none:** behind a header between two addresses of
zeros, for a datagram from port 65502 to port 0 without a payload. -/
theorem datagram_checksum_filled_in_as_zero :
    ∃ q ip d, Packet.sealed? ⟨[.ipv4 {}, .udp { srcPort := 65502 }]⟩ = some q ∧
      q.layers = [.ipv4 ip, .udp d] ∧ d.payload.length ≤ 65527 ∧ d.checksum = 0 := by
  refine ⟨_, _, _, rfl, rfl, by decide, ?_⟩
  exact (Udp.Datagram.expectedChecksum_eq_zero_iff (by decide) _).2 (by decide)

end Packet

end RemoteMemory
