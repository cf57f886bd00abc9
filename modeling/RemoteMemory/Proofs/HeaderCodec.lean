/-
# Headers of a fixed length, read and written

`to_bytes` and `from_bytes` of `EthernetHeader`, `Ipv4Header` and `UaLinkHeader`, `SPEC_FULL.md`,
sections 4.2 and 4.3.

The link header, the IPv4 header and the request header have one length on the wire each, and their
readers look at that many octets and not behind them.  A reader is exact
(`Octets.ReadsExactly`) if it finds a header in front of a string just when the string begins as
that header is written.  Then what is read is written as it stood, and what is written reads back
whatever follows it; both directions come from one statement per header.

| header | octets | in front of a string | reads back |
| --- | ---: | --- | --- |
| link | 14 | always | always |
| IPv4 | 20 | if the first octet has 4 above | if the version is 4, the length at most 15 |
| request | 16 | always | without the range it was made for |

Version and header length of an IPv4 header share an octet and are kept in one each.  Only values
that fit into a half come apart again: a version of 20 is written as a 4, and a header length of 16
or more runs into the version (`Ipv4.Header.ofOctets?_octets_append`).  The reader of request
headers is not exact.  It does not look at the two reserved octets at the end, and they are written
as zeros (`Request.Header.octets_of_ofOctets?`).
-/

import Mathlib
import RemoteMemory.Proofs.Frame
import RemoteMemory.Proofs.HeaderValidity

namespace RemoteMemory

namespace Octets

/-- **A reader is exact** for a way of writing and some good values: it reads a value off a string
exactly if the value is good and the string begins as the value is written. -/
def ReadsExactly {α : Type} (read : Octets → Option α) (write : α → Octets) (good : α → Prop) :
    Prop :=
  ∀ bs a, read bs = some a ↔ good a ∧ write a <+: bs

namespace ReadsExactly

variable {α : Type} {read : Octets → Option α} {write : α → Octets} {good : α → Prop}

/-- What is written reads back exactly if it is good, whatever follows it. -/
theorem read_write_append_iff (h : ReadsExactly read write good) (a : α) (rest : Octets) :
    read (write a ++ rest) = some a ↔ good a := by
  rw [h]
  exact and_iff_left (List.prefix_append ..)

/-- What is read is written as it stood at the front of the string. -/
theorem write_eq_take (h : ReadsExactly read write good) {bs : Octets} {a : α}
    (hread : read bs = some a) : write a = bs.take (write a).length :=
  List.prefix_iff_eq_take.1 ((h bs a).1 hread).2

end ReadsExactly

/-- The low octet of a word is the second one it is read from. -/
theorem toUInt8_word16 (a b : UInt8) : (word16 a b).toUInt8 = b := by
  have hb : b.toNat < 256 := b.toNat_lt
  apply UInt8.toNat_inj.1
  rw [UInt16.toNat_toUInt8, toNat_word16]
  omega

/-- The high octet of a word is the first one it is read from. -/
theorem toUInt8_word16_shiftRight (a b : UInt8) : (word16 a b >>> 8).toUInt8 = a := by
  have ha : a.toNat < 256 := a.toNat_lt
  have hb : b.toNat < 256 := b.toNat_lt
  apply UInt8.toNat_inj.1
  rw [UInt16.toNat_toUInt8, UInt16.toNat_shiftRight, Nat.shiftRight_eq_div_pow,
    toNat_word16]
  change (256 * a.toNat + b.toNat) / 256 % 256 = a.toNat
  omega

end Octets

namespace Ethernet.Header

/-- **The reader of link headers is exact,** and every header is good. -/
theorem readsExactly : Octets.ReadsExactly ofOctets? octets fun _ => True := by
  intro bs h
  constructor
  · intro hread
    exact ⟨trivial, _, (octets_of_ofOctets? hread).symm⟩
  · rintro ⟨-, rest, rfl⟩
    exact ofOctets?_octets_append h rest

end Ethernet.Header

namespace Ipv4.Header

/-- Version and header length share the first octet; both halves together are the octet. -/
theorem shiftRight_shiftLeft_or_and (first : UInt8) :
    ((first >>> 4) <<< 4) ||| (first &&& 0x0F) = first := by
  apply UInt8.toBitVec_inj.1
  apply BitVec.eq_of_getLsbD_eq
  intro i hi
  interval_cases i <;> simp

/-- **Version 4 and a header length of four bits come apart again.** -/
theorem halves_of_le {ihl : UInt8} (h : ihl ≤ 15) :
    (((4 : UInt8) <<< 4) ||| ihl) >>> 4 = 4 ∧ (((4 : UInt8) <<< 4) ||| ihl) &&& 0x0F = ihl := by
  have hihl : ihl.toNat < 16 := Nat.lt_succ_of_le h
  have hfirst : (((4 : UInt8) <<< 4) ||| ihl).toNat = 64 + ihl.toNat := by
    rw [UInt8.toNat_or]
    exact (Nat.shiftLeft_add_eq_or_of_lt (i := 4) hihl 4).symm
  have hversion : (((4 : UInt8) <<< 4) ||| ihl) >>> 4 = 4 := by
    apply UInt8.toNat_inj.1
    rw [UInt8.toNat_shiftRight, hfirst, Nat.shiftRight_eq_div_pow]
    change (64 + ihl.toNat) / 16 = 4
    omega
  -- The low half is what is left when the high half is known.
  refine ⟨hversion, UInt8.toNat_inj.1 ?_⟩
  have hsplit := (toNat_of_shiftRight_eq hversion).1
  omega

/-- **A written header is read by its first octet:** everything else comes back as it was. -/
theorem ofOctets?_octets_append (h : Header) (rest : Octets) :
    ofOctets? (h.octets ++ rest) =
      let first := (h.version <<< 4) ||| h.ihl
      if first >>> 4 = 4 then some { h with version := first >>> 4, ihl := first &&& 0x0F }
      else none := by
  obtain ⟨l0, l1, hlength, hlength'⟩ := Octets.exists_word16 h.totalLength
  obtain ⟨i0, i1, hid, hid'⟩ := Octets.exists_word16 h.id
  obtain ⟨f0, f1, hfragment, hfragment'⟩ := Octets.exists_word16 h.flagsFragment
  obtain ⟨c0, c1, hsum, hsum'⟩ := Octets.exists_word16 h.checksum
  rw [octets, hlength, hid, hfragment, hsum]
  simp only [Address.octets, List.cons_append, List.nil_append, ofOctets?, hlength', hid',
    hfragment', hsum']

/-- **The reader of IPv4 headers is exact,** and good are the headers of version 4 whose length has
four bits. -/
theorem readsExactly :
    Octets.ReadsExactly ofOctets? octets fun h => h.version = 4 ∧ h.ihl ≤ 15 := by
  intro bs h
  constructor
  · intro hread
    unfold ofOctets? at hread
    split at hread
    · split_ifs at hread with hversion
      obtain rfl := Option.some.inj hread
      refine ⟨⟨hversion, (toNat_of_shiftRight_eq hversion).2⟩, ?_⟩
      simp [octets, shiftRight_shiftLeft_or_and, Address.octets]
    · cases hread
  · rintro ⟨⟨hversion, hihl⟩, rest, rfl⟩
    obtain ⟨hhigh, hlow⟩ := halves_of_le hihl
    simp only [ofOctets?_octets_append, hversion, hhigh, hlow, if_pos]
    rw [← hversion]

/-- **A string has a header at its front** if it has 20 octets, and 4 in the high half of the
first. -/
theorem isSome_ofOctets?_iff {bs : Octets} :
    (ofOctets? bs).isSome ↔
      size ≤ bs.length ∧ ∃ first : UInt8, bs[0]? = some first ∧ first >>> 4 = 4 := by
  constructor
  · intro h
    unfold ofOctets? at h
    split at h
    · split_ifs at h with hversion
      · exact ⟨by simp [size], _, rfl, hversion⟩
      · cases h
    · cases h
  · rintro ⟨h, first, hfirst, hversion⟩
    change 20 ≤ bs.length at h
    have hbs : bs[0] :: bs[1] :: bs[2] :: bs[3] :: bs[4] :: bs[5] :: bs[6] :: bs[7] :: bs[8] ::
        bs[9] :: bs[10] :: bs[11] :: bs[12] :: bs[13] :: bs[14] :: bs[15] :: bs[16] :: bs[17] ::
        bs[18] :: bs[19] :: bs.drop 20 = bs := by
      simp only [List.getElem_cons_drop, List.drop_zero]
    have hzero : bs[0] = first := by
      rw [List.getElem?_eq_getElem (by omega)] at hfirst
      exact Option.some.inj hfirst
    rw [← hbs, ofOctets?, hzero, if_pos hversion]
    rfl

end Ipv4.Header

namespace Request.Header

/-- **A read header is written as it was read,** with zeros in the reserved octets. -/
theorem octets_of_ofOctets? {bs : Octets} {h : Header} (hread : ofOctets? bs = some h) :
    h.octets = bs.take 14 ++ [0, 0] := by
  unfold ofOctets? at hread
  split at hread
  · obtain rfl := Option.some.inj hread
    simp [octets, firstMask, lastMask, Octets.toUInt8_word16,
      Octets.toUInt8_word16_shiftRight]
  · cases hread

end Request.Header

/-! ### All three headers -/

/-- **The headers of a fixed length are read and written exactly.**  An IPv4 header is read off
every string of at least 20 octets with a 4 in the high half of the first, a link header off every
string of at least 14 octets and a request header off every string of at least 16, and each is
written as it stood there, but for the two reserved octets of a request header, which are written as
zeros.  Whatever follows a written header, a link header reads back, an IPv4 header reads back
exactly if its version is 4 and its header length at most 15, and a request header reads back with
its base address for the address and without a payload length. -/
theorem fixed_headers_exact :
    (∀ bs : Octets,
      ((Ipv4.Header.ofOctets? bs).isSome ↔
        20 ≤ bs.length ∧ ∃ first : UInt8, bs[0]? = some first ∧ first >>> 4 = 4) ∧
      ∀ h, Ipv4.Header.ofOctets? bs = some h → h.octets = bs.take 20) ∧
    (∀ bs : Octets,
      ((Ethernet.Header.ofOctets? bs).isSome ↔ 14 ≤ bs.length) ∧
      ∀ h, Ethernet.Header.ofOctets? bs = some h → h.octets = bs.take 14) ∧
    (∀ bs : Octets,
      ((Request.Header.ofOctets? bs).isSome ↔ 16 ≤ bs.length) ∧
      ∀ h, Request.Header.ofOctets? bs = some h → h.octets = bs.take 14 ++ [0, 0]) ∧
    (∀ (h : Ethernet.Header) (rest : Octets),
      Ethernet.Header.ofOctets? (h.octets ++ rest) = some h) ∧
    (∀ (h : Ipv4.Header) (rest : Octets),
      Ipv4.Header.ofOctets? (h.octets ++ rest) = some h ↔ h.version = 4 ∧ h.ihl ≤ 15) ∧
    ∀ (h : Request.Header) (rest : Octets),
      Request.Header.ofOctets? (h.octets ++ rest) =
        some { h with address := h.baseAddress, payloadLength := 0 } := by
  refine ⟨fun bs => ⟨Ipv4.Header.isSome_ofOctets?_iff, fun h hread => ?_⟩,
    fun bs => ⟨Ethernet.Header.isSome_ofOctets?_iff, fun h hread => ?_⟩,
    fun bs => ⟨Request.Header.isSome_ofOctets?_iff, fun h hread =>
      Request.Header.octets_of_ofOctets? hread⟩,
    Ethernet.Header.ofOctets?_octets_append, fun h rest => ?_,
    Request.Header.ofOctets?_octets_append⟩
  · rw [Ipv4.Header.readsExactly.write_eq_take hread, h.length_octets, Ipv4.Header.size]
  · rw [Ethernet.Header.readsExactly.write_eq_take hread, h.length_octets, Ethernet.Header.size]
  · exact Ipv4.Header.readsExactly.read_write_append_iff h rest

/-- A header length of 15 reads back in front of other octets; a version of 20 is read as a 4, and a
header of that version does not read back; what stood in the reserved octets is lost. -/
theorem fixed_headers_exact_shared_octet :
    let longest : Ipv4.Header := { ihl := 15 }
    let beyond : Ipv4.Header := { version := 20 }
    let reserved : Octets := List.replicate 14 1 ++ [7, 9]
    Ipv4.Header.ofOctets? (longest.octets ++ [1, 2]) = some longest ∧
      Ipv4.Header.ofOctets? beyond.octets = some {} ∧
      Ipv4.Header.ofOctets? (beyond.octets ++ []) ≠ some beyond ∧
      ∃ h, Request.Header.ofOctets? reserved = some h ∧
        h.octets = List.replicate 14 1 ++ [0, 0] := by
  obtain ⟨-, -, hrequest, -, hipv4, -⟩ := fixed_headers_exact
  refine ⟨(hipv4 _ _).2 (by decide), by decide, fun h => ?_, ?_⟩
  · exact absurd ((hipv4 _ _).1 h) (by decide)
  · have hlength : 16 ≤ (List.replicate 14 (1 : UInt8) ++ [7, 9]).length := by decide
    obtain ⟨h, hread⟩ := Option.isSome_iff_exists.1 ((hrequest _).1.2 hlength)
    exact ⟨h, hread, (hrequest _).2 h hread⟩

end RemoteMemory
