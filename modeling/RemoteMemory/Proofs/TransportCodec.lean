/-
# Datagrams and segments, read and written

`UdpHeader` and `TcpHeader`, `SPEC_FULL.md`, section 4.2.

Both carry their payload, and both say in the header where it begins or ends.  A UDP header says how
long the datagram is and not what is behind it; a TCP header says how long it is itself, and all
that follows is payload.

| | says | stored | read off |
| --- | --- | --- | --- |
| datagram | the length of header and payload, cut to 16 bits | no | the front of a string |
| segment | the length of the header, in words of 32 bits | yes | a whole string |

A datagram is written with the length it has, so it reads back from in front of anything unless the
length is cut: the payload has at most 65527 octets (`Udp.Datagram.readsExactly`).  A longer one may
still be read, as another datagram.

A segment is written with the length that is stored, which need not be the one it has.  It reads
back exactly if it is `Consistent`, and what is read is consistent and is written as it stood
(`Tcp.Segment.ofOctets?_eq_some_iff`).  With another data offset options are lost or filled with
zeros, or payload moves into the places of the header; what is read then, if anything, declares the
options it has, and the segment that was written does not.
-/

import Mathlib
import RemoteMemory.Packet.Layer
import RemoteMemory.Proofs.AbsentChecksum
import RemoteMemory.Proofs.HeaderCodec
import RemoteMemory.Proofs.SegmentHeader

namespace RemoteMemory

/-- The high four bits of a word are those of its first octet. -/
theorem Octets.toNat_word16_div (a b : UInt8) :
    (word16 a b).toNat / 4096 = (a >>> 4).toNat := by
  have hb : b.toNat < 256 := b.toNat_lt
  rw [toNat_word16, UInt8.toNat_shiftRight, Nat.shiftRight_eq_div_pow]
  change (256 * a.toNat + b.toNat) / 4096 = a.toNat / 16
  omega

/-! ### Datagrams -/

namespace Udp.Datagram

/-- The length field of a string that begins with a UDP header: the word in octets 4 and 5. -/
def lengthField (bs : Octets) : ℕ := (Octets.word16 (bs.getD 4 0) (bs.getD 5 0)).toNat

/-- **A written header is read by its length field:** what follows it is the payload, up to that
length. -/
theorem ofOctets?_header_append (d : Datagram) (rest : Octets) :
    ofOctets? (d.header ++ rest) =
      if headerSize ≤ d.length.toNat ∧ d.length.toNat ≤ headerSize + rest.length then
        some { d with payload := rest.take (d.length.toNat - headerSize) }
      else none := by
  obtain ⟨s0, s1, hsrc, hsrc'⟩ := Octets.exists_word16 d.srcPort
  obtain ⟨d0, d1, hdst, hdst'⟩ := Octets.exists_word16 d.dstPort
  obtain ⟨l0, l1, hlength, hlength'⟩ := Octets.exists_word16 d.length
  obtain ⟨c0, c1, hsum, hsum'⟩ := Octets.exists_word16 d.checksum
  rw [header, hsrc, hdst, hlength, hsum]
  simp only [List.cons_append, List.nil_append, ofOctets?, hsrc', hdst', hlength', hsum']

/-- A datagram that is read has the length that was declared. -/
theorem wireSize_of_ofOctets? {bs : Octets} {d : Datagram} (hread : ofOctets? bs = some d) :
    d.wireSize = lengthField bs := by
  unfold ofOctets? at hread
  split at hread
  · simp only at hread
    split_ifs at hread with hlength
    obtain rfl := Option.some.inj hread
    simp only [wireSize, List.length_take, Nat.min_eq_left (Nat.sub_le_iff_le_add'.2 hlength.2)]
    exact Nat.add_sub_of_le hlength.1
  · cases hread

/-- **The reader of datagrams is exact,** and good are those whose length has 16 bits. -/
theorem readsExactly : Octets.ReadsExactly ofOctets? octets fun d => d.payload.length ≤ 65527 := by
  intro bs d
  constructor
  · intro hread
    have hsize : headerSize + d.payload.length = lengthField bs := wireSize_of_ofOctets? hread
    have hword : lengthField bs < 65536 := UInt16.toNat_lt _
    -- The length field is not kept, so it has to be the one that is computed again.
    have hfield : d.length = Octets.word16 (bs.getD 4 0) (bs.getD 5 0) := by
      rw [length, wireSize_of_ofOctets? hread, lengthField, UInt16.ofNat_toNat]
    refine ⟨Nat.le_of_lt_succ (by unfold headerSize at hsize; omega), ?_⟩
    unfold ofOctets? at hread
    split at hread
    · simp only at hread
      split_ifs at hread
      obtain rfl := Option.some.inj hread
      simp [octets, header, hfield, List.take_prefix]
    · cases hread
  · rintro ⟨hgood, rest, rfl⟩
    have hlength : d.length.toNat = headerSize + d.payload.length := toNat_length hgood
    rw [octets, List.append_assoc, ofOctets?_header_append, hlength, List.length_append,
      if_pos ⟨Nat.le_add_right .., by omega⟩, Nat.add_sub_cancel_left, List.take_left]

/-- **A string holds a datagram** exactly if its length field covers the header and ends inside. -/
theorem isSome_ofOctets?_iff {bs : Octets} :
    (ofOctets? bs).isSome ↔
      headerSize ≤ bs.length ∧ headerSize ≤ lengthField bs ∧ lengthField bs ≤ bs.length := by
  constructor
  · intro h
    unfold ofOctets? at h
    split at h
    · simp only at h
      split_ifs at h with hlength
      · refine ⟨by simp [headerSize], hlength.1, hlength.2.trans ?_⟩
        simp only [List.length_cons, headerSize]
        omega
      · cases h
    · cases h
  · rintro ⟨h, hmin, hmax⟩
    change 8 ≤ bs.length at h
    have hbs : bs[0] :: bs[1] :: bs[2] :: bs[3] :: bs[4] :: bs[5] :: bs[6] :: bs[7] ::
        bs.drop 8 = bs := by
      simp only [List.getElem_cons_drop, List.drop_zero]
    have hfield : lengthField bs = (Octets.word16 bs[4] bs[5]).toNat := by
      rw [lengthField, List.getD_eq_getElem, List.getD_eq_getElem]
    have hend : bs.length = headerSize + (bs.drop 8).length := by
      rw [List.length_drop]
      exact (Nat.add_sub_of_le h).symm
    rw [hfield] at hmin hmax
    rw [← hbs, ofOctets?, if_pos ⟨hmin, hmax.trans_eq hend⟩]
    rfl

/-- **Datagrams are read and written exactly.**  One is read off every string whose length field
covers the eight octets of a header and ends inside the string; it is written as it stood there, up
to the declared length, and is read whatever stands behind that.  Whatever follows a written
datagram, it reads back exactly if its payload has at most 65527 octets. -/
theorem datagram_codec_exact :
    (∀ bs : Octets,
      ((ofOctets? bs).isSome ↔
        8 ≤ bs.length ∧ 8 ≤ lengthField bs ∧ lengthField bs ≤ bs.length) ∧
      ∀ d, ofOctets? bs = some d →
        (Layer.udp d).octets = bs.take (lengthField bs) ∧
        ∀ rest, ofOctets? (bs.take (lengthField bs) ++ rest) = some d) ∧
    ∀ (d : Datagram) (rest : Octets),
      ofOctets? ((Layer.udp d).octets ++ rest) = some d ↔ d.payload.length ≤ 65527 := by
  refine ⟨fun bs => ⟨isSome_ofOctets?_iff, fun d hread => ?_⟩, fun d rest => ?_⟩
  · have hoctets : d.octets = bs.take d.octets.length := readsExactly.write_eq_take hread
    rw [length_octets, wireSize_of_ofOctets? hread] at hoctets
    refine ⟨hoctets, fun rest => ?_⟩
    rw [← hoctets, readsExactly.read_write_append_iff]
    exact ((readsExactly bs d).1 hread).1
  · exact readsExactly.read_write_append_iff d rest

/-- A datagram reads back in front of an octet of padding.  A payload of 65536 octets leaves 8 for
the length: a datagram is read off the string, and not the one that was written. -/
theorem datagram_codec_exact_wrapped_length :
    let short : Datagram := { srcPort := 7, dstPort := 9, payload := [1, 2, 3] }
    let padded := (Layer.udp short).octets ++ [0xEE]
    let long : Datagram := { srcPort := 7, dstPort := 9, payload := List.replicate 65536 0 }
    ofOctets? padded = some short ∧
      (Layer.udp short).octets = padded.take (lengthField padded) ∧
      ofOctets? (padded.take (lengthField padded) ++ [0xFF, 0xFF]) = some short ∧
      ofOctets? ((Layer.udp long).octets ++ []) ≠ some long ∧
      ofOctets? (Layer.udp long).octets = some { srcPort := 7, dstPort := 9 } := by
  intro short padded long
  have hshort : ofOctets? padded = some short :=
    (datagram_codec_exact.2 short _).2 (by decide)
  have hpayload : long.payload.length = 65536 := List.length_replicate
  have hlength : long.length = 8 := by
    rw [length, wireSize, hpayload]
    decide
  obtain ⟨hwritten, hread⟩ := (datagram_codec_exact.1 padded).2 short hshort
  refine ⟨hshort, hwritten, hread _, fun h => ?_, ?_⟩
  · have hfits := (datagram_codec_exact.2 long []).1 h
    omega
  · change ofOctets? (long.header ++ long.payload) = _
    rw [ofOctets?_header_append, hlength, if_pos ⟨by decide, Nat.le_add_right ..⟩]
    rfl

end Udp.Datagram

/-! ### Segments -/

namespace Tcp.Segment

/-- The data offset of a string that begins with a TCP header: the high half of octet 12. -/
def offsetField (bs : Octets) : ℕ := (bs.getD 12 0 >>> 4).toNat

/-- **A read segment is written as it was read.** -/
theorem octets_of_ofOctets? {bs : Octets} {s : Segment} (hread : ofOctets? bs = some s) :
    s.octets = bs := by
  -- What is read is consistent, so that nothing of it is cut or filled.
  rw [octets, (consistent_of_ofOctets? hread).header_eq]
  unfold ofOctets? at hread
  split at hread
  · simp only at hread
    split_ifs at hread
    obtain rfl := Option.some.inj hread
    simp [fixed, List.take_append_drop]
  · cases hread

/-- **Segments are read off whole strings,** and exactly the consistent ones off those they are
written as. -/
theorem ofOctets?_eq_some_iff {bs : Octets} {s : Segment} :
    ofOctets? bs = some s ↔ s.Consistent ∧ s.octets = bs := by
  constructor
  · intro hread
    exact ⟨consistent_of_ofOctets? hread, octets_of_ofOctets? hread⟩
  · rintro ⟨h, rfl⟩
    exact (ofOctets?_octets_iff s).2 h

/-- **A string is a segment** exactly if its data offset covers twenty octets and ends inside. -/
theorem isSome_ofOctets?_iff {bs : Octets} :
    (ofOctets? bs).isSome ↔
      minHeaderSize ≤ bs.length ∧ minHeaderSize ≤ 4 * offsetField bs ∧
        4 * offsetField bs ≤ bs.length := by
  constructor
  · intro h
    unfold ofOctets? at h
    split at h
    · simp only [Octets.toNat_word16_div] at h
      split_ifs at h with hlength
      · refine ⟨by simp [minHeaderSize], hlength.1, hlength.2.trans ?_⟩
        simp only [List.length_cons, minHeaderSize]
        omega
      · cases h
    · cases h
  · rintro ⟨h, hmin, hmax⟩
    change 20 ≤ bs.length at h
    have hbs : bs[0] :: bs[1] :: bs[2] :: bs[3] :: bs[4] :: bs[5] :: bs[6] :: bs[7] :: bs[8] ::
        bs[9] :: bs[10] :: bs[11] :: bs[12] :: bs[13] :: bs[14] :: bs[15] :: bs[16] :: bs[17] ::
        bs[18] :: bs[19] :: bs.drop 20 = bs := by
      simp only [List.getElem_cons_drop, List.drop_zero]
    have hfield : offsetField bs = (Octets.word16 bs[12] bs[13]).toNat / 4096 := by
      rw [offsetField, List.getD_eq_getElem, Octets.toNat_word16_div]
    have hend : bs.length = minHeaderSize + (bs.drop 20).length := by
      rw [List.length_drop]
      exact (Nat.add_sub_of_le h).symm
    rw [hfield] at hmin hmax
    rw [← hbs, ofOctets?, if_pos ⟨hmin, hmax.trans_eq hend⟩]
    rfl

/-- **Segments are read and written exactly.**  A string of at least twenty octets is read if its
data offset covers these and ends inside the string, and what is read is written as the string,
options, reserved bits and payload included.  A segment reads back exactly if its data offset
declares the options it has. -/
theorem segment_codec_exact :
    (∀ bs : Octets,
      ((ofOctets? bs).isSome ↔
        20 ≤ bs.length ∧ 20 ≤ 4 * offsetField bs ∧ 4 * offsetField bs ≤ bs.length) ∧
      ∀ s, ofOctets? bs = some s → (Layer.tcp s).octets = bs) ∧
    ∀ s : Segment,
      ofOctets? (Layer.tcp s).octets = some s ↔ 4 * s.dataOffset = 20 + s.options.length :=
  ⟨fun _ => ⟨isSome_ofOctets?_iff, fun _ hread => (ofOctets?_eq_some_iff.1 hread).2⟩,
    ofOctets?_octets_iff⟩

/-- A segment with options, reserved bits and a payload reads back.  With a data offset of 0 no
header is written at all: the payload stands in its place, and is read if it is a segment. -/
theorem segment_codec_exact_no_header :
    let whole : Segment :=
      { offsetAndFlags := 0x6E18, options := [2, 4, 5, 0xB4], payload := [1, 2, 3] }
    let bare : Segment := { offsetAndFlags := 0, payload := (Layer.tcp whole).octets }
    ofOctets? (Layer.tcp whole).octets = some whole ∧
      ofOctets? (Layer.tcp bare).octets = some whole ∧
      (Layer.tcp whole).octets = (Layer.tcp bare).octets ∧
      ofOctets? (Layer.tcp bare).octets ≠ some bare := by
  intro whole bare
  have hbare : ofOctets? (Layer.tcp bare).octets = some whole := by decide
  refine ⟨(segment_codec_exact.2 whole).2 (by decide), hbare,
    (segment_codec_exact.1 _).2 whole hbare, fun h => ?_⟩
  exact absurd ((segment_codec_exact.2 bare).1 h) (by decide)

end Tcp.Segment
end RemoteMemory
