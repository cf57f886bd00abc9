/-
# Which IPv4 headers verify

`has_valid_checksum`, `SPEC_FULL.md`, section 4.2.

An IPv4 header can be checked in two places.  Its sender compares the checksum it holds with the
one computed from its fields (`Ipv4.Header.hasValidChecksum`).  A receiver sums the twenty octets it
is written as, the checksum among them, and looks for 0.  The fields are packed into words without
regard to the octets, and still both checks read one sum, as long as the header length fits into
its four bits (`Ipv4.Header.words_octets`); every header that is made or read has such a length
(`Ipv4.Header.Made.ihl_le`).

The sum has two zeros: the checksum 0 and the checksum of all ones leave the same residue.  The
checksum computed from the fields is one of the two, and a receiver takes both.  So the checks
agree on every header but those that carry all ones where 0 is computed
(`Ipv4.Header.wire_check_agrees`).
-/

import Mathlib
import RemoteMemory.Proofs.Receiver

namespace RemoteMemory
namespace Ipv4
namespace Header

/-! ### Header lengths of headers that are made -/

/-- An octet whose high half is 4 is its low half above that. -/
theorem toNat_of_shiftRight_eq {first : UInt8} (h : first >>> 4 = 4) :
    first.toNat = 64 + (first &&& 0x0F).toNat ∧ (first &&& 0x0F).toNat ≤ 15 := by
  have hhigh : first.toNat / 16 = 4 := by
    have hnat := congrArg UInt8.toNat h
    rwa [UInt8.toNat_shiftRight, Nat.shiftRight_eq_div_pow] at hnat
  have hlow : (first &&& 0x0F).toNat = first.toNat % 16 := by
    rw [UInt8.toNat_and]
    exact Nat.and_two_pow_sub_one_eq_mod _ 4
  omega

/-- **The first octet of a header that is read** holds the version, 4, and the header length. -/
theorem exists_head_of_ofOctets? {bs : Octets} {h : Header} (hread : ofOctets? bs = some h) :
    ∃ first, bs.head? = some first ∧ first.toNat = 64 + h.ihl.toNat ∧ h.ihl.toNat ≤ 15 := by
  unfold ofOctets? at hread
  split at hread
  · split_ifs at hread with hversion
    obtain rfl := Option.some.inj hread
    exact ⟨_, rfl, toNat_of_shiftRight_eq hversion⟩
  · cases hread

/-- A header as it is made: with all fields at their defaults, for a protocol and two addresses, or
read from an octet string. -/
inductive Made : Header → Prop
  | default : Made {}
  | carrying (protocol : UInt8) (src dst : Address) : Made (.carrying protocol src dst)
  | read {bs : Octets} {header : Header} (h : ofOctets? bs = some header) : Made header

/-- The header length of a header that is made fits into four bits. -/
theorem Made.ihl_le {h : Header} (hmade : Made h) : h.ihl.toNat ≤ 15 := by
  cases hmade with
  | default => decide
  | carrying => exact (by decide : (5 : UInt8).toNat ≤ 15)
  | read hread =>
    obtain ⟨_, -, -, hihl⟩ := exists_head_of_ofOctets? hread
    exact hihl

/-! ### Both checks -/

theorem hasValidChecksum_iff (h : Header) :
    h.hasValidChecksum = true ↔ h.checksum = h.expectedChecksum := by
  rw [hasValidChecksum, beq_iff_eq, eq_comm]

/-- **The check on the wire and the check of the fields agree, but for the second zero.**  The
header length of every header that is made fits into four bits.  Of any header of which it does,
whatever its other fields are: with the checksum computed from its fields it verifies as it is
written; as it stands it verifies exactly if it holds that checksum, or holds all ones where that
checksum is 0.  So a header that is valid by its fields verifies, and one that verifies and is not
valid by its fields is one of the latter. -/
theorem wire_check_agrees :
    (∀ h, Made h → h.ihl.toNat ≤ 15) ∧
    ∀ h : Header, h.ihl.toNat ≤ 15 →
      RemoteMemory.checksum ({ h with checksum := h.expectedChecksum } : Header).octets = 0 ∧
      (RemoteMemory.checksum h.octets = 0 ↔
        h.hasValidChecksum = true ∨ h.expectedChecksum = 0 ∧ h.checksum = 0xFFFF) ∧
      (h.hasValidChecksum = true → RemoteMemory.checksum h.octets = 0) ∧
      (RemoteMemory.checksum h.octets = 0 ∧ h.hasValidChecksum = false ↔
        h.expectedChecksum = 0 ∧ h.checksum = 0xFFFF) := by
  refine ⟨fun h hmade => hmade.ihl_le, fun h hihl => ?_⟩
  have hroom : h.ihl.toNat < 16 := Nat.lt_succ_of_le hihl
  have hverifies : RemoteMemory.checksum h.octets = 0 ↔
      h.hasValidChecksum = true ∨ h.expectedChecksum = 0 ∧ h.checksum = 0xFFFF := by
    rw [hasValidChecksum_iff]
    exact checksum_octets_eq_zero_iff hroom
  refine ⟨checksum_octets hroom rfl, hverifies, fun hvalid => hverifies.2 (.inl hvalid), ?_⟩
  rw [hverifies]
  constructor
  · rintro ⟨hvalid | hzero, hinvalid⟩
    · rw [hvalid] at hinvalid
      cases hinvalid
    · exact hzero
  · rintro ⟨hzero, hones⟩
    -- the checksum held is all ones, and not the computed one
    have hinvalid : ¬ h.hasValidChecksum = true := by
      rw [hasValidChecksum_iff, hzero, hones]
      decide
    exact ⟨.inr ⟨hzero, hones⟩, Bool.eq_false_iff.2 hinvalid⟩

/-- A header with the longest header length, read from octets that hold the second zero. -/
theorem wire_check_agrees_second_zero :
    let h : Header := { ihl := 15, id := 0x70EE, checksum := 0xFFFF }
    Made h ∧ h.ihl.toNat ≤ 15 ∧ h.expectedChecksum = 0 ∧ h.hasValidChecksum = false ∧
      RemoteMemory.checksum h.octets = 0 ∧
      RemoteMemory.checksum ({ h with checksum := 0 } : Header).octets = 0 := by
  intro h
  have hread : ofOctets? h.octets = some h := by decide
  have hihl : h.ihl.toNat ≤ 15 := wire_check_agrees.1 h (.read hread)
  have hsum : Checksum.total (h.checksumWords h.totalLength) = 65535 := by decide
  have hzero : h.expectedChecksum = 0 := by
    have hfits : Checksum.Fits (h.checksumWords h.totalLength) :=
      Checksum.fits_of_length_le (by decide)
    rw [expectedChecksum, wordChecksum_eq_zero_iff hfits, hsum]
    decide
  obtain ⟨hsealed, -, -, hsecond⟩ := wire_check_agrees.2 h hihl
  obtain ⟨hverifies, hinvalid⟩ := hsecond.2 ⟨hzero, rfl⟩
  rw [hzero] at hsealed
  exact ⟨.read hread, hihl, hzero, hinvalid, hverifies, hsealed⟩

end Header
end Ipv4
end RemoteMemory
