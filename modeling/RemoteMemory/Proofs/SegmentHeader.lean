/-
# The header of a TCP segment

`TcpHeader`, its options and flags, `SPEC_FULL.md`, section 4.2.

A header long enough for its checksum is what stands in front of the checksum, the
checksum, and what is behind it (`Tcp.Segment.header_eq`).  The checksum of the segment
covers the first and the last of these, with a zero word between them.

A segment is `Consistent` if its data offset counts the twenty octets and the options, no
more and no less.  Such segments, and no others, read back as they were written
(`Tcp.Segment.ofOctets?_octets_iff`), and all of them have a checksum.

Segments that are made or read are consistent, and other flags leave a segment as
consistent as it was.  Other options do not: the data offset has four bits and is cut to
them, so that options of more than 40 octets make the header too short
(`Tcp.Segment.consistent_setOptions_iff`).  After any edits a segment is consistent exactly
if the options set last are no longer than that (`Tcp.Segment.consistent_after_edits`).
-/

import Mathlib
import RemoteMemory.Tcp.Segment
import RemoteMemory.Proofs.OnesComplement

namespace RemoteMemory

namespace Octets

/-- Bringing to a length leaves a front that is no longer alone. -/
theorem resize_append {n : ℕ} {as : Octets} (h : as.length ≤ n) (bs : Octets) :
    resize n (as ++ bs) = as ++ resize (n - as.length) bs := by
  have hfill : n - (as.length + bs.length) = n - as.length - bs.length := by omega
  rw [resize, resize, List.take_append, List.take_of_length_le h, List.length_append, hfill,
    List.append_assoc]

end Octets

namespace Tcp
namespace Segment

/-! ### Layout -/

/-- The sixteen octets in front of the checksum. -/
def front (s : Segment) : Octets :=
  Octets.ofWord16 s.srcPort ++ Octets.ofWord16 s.dstPort ++ Octets.ofWord32 s.seqNumber ++
    Octets.ofWord32 s.ackNumber ++ Octets.ofWord16 s.offsetAndFlags ++ Octets.ofWord16 s.window

/-- The header behind the checksum: the urgent pointer, and the options as they are written. -/
def back (s : Segment) : Octets :=
  Octets.ofWord16 s.urgentPointer ++ Octets.resize (s.headerSize - minHeaderSize) s.options

@[simp] theorem length_front (s : Segment) : s.front.length = 16 := by
  simp [front]

theorem length_back (s : Segment) : s.back.length = 2 + (s.headerSize - minHeaderSize) := by
  simp [back]

theorem fixed_eq (s : Segment) :
    s.fixed = s.front ++ Octets.ofWord16 s.checksum ++ Octets.ofWord16 s.urgentPointer := rfl

theorem minHeaderSize_le_headerSize {s : Segment} (h : 5 ≤ s.dataOffset) :
    minHeaderSize ≤ s.headerSize := by
  unfold minHeaderSize headerSize
  omega

/-- **A header with room for its checksum** is the checksum between a front and a back. -/
theorem header_eq {s : Segment} (h : 5 ≤ s.dataOffset) :
    s.header = s.front ++ Octets.ofWord16 s.checksum ++ s.back := by
  have hfixed : s.fixed.length ≤ s.headerSize := by
    rw [length_fixed]
    exact minHeaderSize_le_headerSize h
  rw [header, Octets.resize_append hfixed, length_fixed, fixed_eq, back, List.append_assoc _ _
    (Octets.resize _ _)]

/-- The checksum covers the header with zero in its own place. -/
theorem headerWords?_eq {s : Segment} (h : 5 ≤ s.dataOffset) :
    s.headerWords? = some (s.front.words ++ 0 :: s.back.words) := by
  have hroom : 18 ≤ s.headerSize := by
    unfold headerSize
    omega
  have htake : s.header.take 16 = s.front := by
    rw [header_eq h, List.append_assoc]
    exact List.take_left' s.length_front
  have hdrop : s.header.drop 18 = s.back := by
    rw [header_eq h]
    exact List.drop_left' (by simp)
  rw [headerWords?, if_pos hroom, htake, hdrop, List.append_assoc,
    Octets.words_append (by simp)]
  rfl

/-- A checksum does not cover the one the segment has. -/
theorem headerWords?_mk_checksum (s : Segment) (c : UInt16) :
    ({ s with checksum := c } : Segment).headerWords? = s.headerWords? := by
  by_cases h : 5 ≤ s.dataOffset
  · have h' : 5 ≤ ({ s with checksum := c } : Segment).dataOffset := h
    rw [headerWords?_eq h, headerWords?_eq h']
    rfl
  · have hnone : ∀ t : Segment, t.dataOffset = s.dataOffset → t.headerWords? = none := by
      intro t ht
      rw [← Option.not_isSome_iff_eq_none, isSome_headerWords?, ht]
      exact h
    have hother : ({ s with checksum := c } : Segment).dataOffset = s.dataOffset := rfl
    rw [hnone s rfl, hnone _ hother]

theorem expectedChecksum?_mk_checksum (s : Segment) (c : UInt16) (ip : Ipv4.Header) :
    ({ s with checksum := c } : Segment).expectedChecksum? ip = s.expectedChecksum? ip := by
  rw [expectedChecksum?, headerWords?_mk_checksum]
  rfl

/-- The words of a header are those its checksum covers, and the checksum. -/
theorem words_header {s : Segment} (h : 5 ≤ s.dataOffset) :
    s.header.words = s.front.words ++ s.checksum :: s.back.words := by
  rw [header_eq h, List.append_assoc, Octets.words_append (by simp),
    Octets.words_append (by simp), Octets.words_ofWord16]
  rfl

/-! ### The words under the checksum -/

/-- The words that the checksum of a segment covers, if its header has room for one. -/
def coveredWords? (s : Segment) (ip : Ipv4.Header) : Option (List UInt16) :=
  s.headerWords?.map fun ws =>
    ip.pseudoWords Ipv4.protocolTcp (.ofNat s.wireSize) ++ ws ++ s.payload.words

theorem expectedChecksum?_eq (s : Segment) (ip : Ipv4.Header) :
    s.expectedChecksum? ip = (s.coveredWords? ip).map wordChecksum := by
  rw [expectedChecksum?, coveredWords?, Option.map_map]
  congr 1
  funext ws
  exact pseudoChecksum_eq_wordChecksum ..

theorem coveredWords?_eq {s : Segment} (h : 5 ≤ s.dataOffset) (ip : Ipv4.Header) :
    s.coveredWords? ip = some (ip.pseudoWords Ipv4.protocolTcp (.ofNat s.wireSize) ++
      (s.front.words ++ 0 :: s.back.words) ++ s.payload.words) := by
  rw [coveredWords?, headerWords?_eq h]
  rfl

/-- A data offset has four bits, so a header has at most sixty octets. -/
theorem headerSize_le (s : Segment) : s.headerSize ≤ 60 := by
  have h : s.offsetAndFlags.toNat < 65536 := s.offsetAndFlags.toNat_lt
  unfold headerSize dataOffset
  omega

theorem fits_coveredWords? {s : Segment} (h : s.payload.length ≤ 65535) {ip : Ipv4.Header}
    {ws : List UInt16} (hws : s.coveredWords? ip = some ws) : Checksum.Fits ws := by
  obtain ⟨header, hheader, rfl⟩ := Option.map_eq_some_iff.1 hws
  have hlen : header.length ≤ 31 := by
    unfold headerWords? at hheader
    split_ifs at hheader with hroom
    obtain rfl := Option.some.inj hheader
    have hsize := s.headerSize_le
    simp only [Octets.length_words, List.length_append, List.length_take, List.length_drop,
      length_header, List.length_cons, List.length_nil]
    omega
  apply Checksum.fits_of_length_le
  simp only [Ipv4.Header.pseudoWords, Ipv4.Address.words, List.length_append, List.length_cons,
    List.length_nil, Octets.length_words]
  omega

theorem isSome_sealed? (s : Segment) (ip : Ipv4.Header) :
    (s.sealed? ip).isSome ↔ 5 ≤ s.dataOffset := by
  simp only [sealed?, expectedChecksum?, Option.isSome_map, isSome_headerWords?]

/-! ### Reading back -/

/-- The data offset counts the twenty octets and the options. -/
def Consistent (s : Segment) : Prop := s.headerSize = minHeaderSize + s.options.length

instance (s : Segment) : Decidable s.Consistent := inferInstanceAs (Decidable (_ = _))

theorem Consistent.five_le {s : Segment} (h : s.Consistent) : 5 ≤ s.dataOffset := by
  unfold Consistent headerSize minHeaderSize at h
  omega

/-- A consistent header is written with its options as they are. -/
theorem Consistent.header_eq {s : Segment} (h : s.Consistent) :
    s.header = s.fixed ++ s.options := by
  refine Octets.resize_self ?_
  rw [List.length_append, length_fixed]
  exact h.symm

/-- What is read is consistent. -/
theorem consistent_of_ofOctets? {bs : Octets} {s : Segment} (h : ofOctets? bs = some s) :
    s.Consistent := by
  unfold ofOctets? at h
  split at h
  · simp only at h
    split_ifs at h with hlength
    obtain rfl := Option.some.inj h
    unfold Consistent headerSize dataOffset
    simp only [List.length_take]
    omega
  · cases h

/-- **Twenty octets read back,** and what follows them is options and payload, if it is long
enough for the options. -/
theorem ofOctets?_fixed_append (s : Segment) (rest : Octets) :
    ofOctets? (s.fixed ++ rest) =
      if minHeaderSize ≤ s.headerSize ∧ s.headerSize ≤ minHeaderSize + rest.length then
        some { s with
          options := rest.take (s.headerSize - minHeaderSize)
          payload := rest.drop (s.headerSize - minHeaderSize) }
      else none := by
  obtain ⟨s0, s1, hsrc, hsrc'⟩ := Octets.exists_word16 s.srcPort
  obtain ⟨d0, d1, hdst, hdst'⟩ := Octets.exists_word16 s.dstPort
  obtain ⟨q0, q1, q2, q3, hseq, hseq'⟩ := Octets.exists_word32 s.seqNumber
  obtain ⟨a0, a1, a2, a3, hack, hack'⟩ := Octets.exists_word32 s.ackNumber
  obtain ⟨o0, o1, hoff, hoff'⟩ := Octets.exists_word16 s.offsetAndFlags
  obtain ⟨w0, w1, hwin, hwin'⟩ := Octets.exists_word16 s.window
  obtain ⟨c0, c1, hsum, hsum'⟩ := Octets.exists_word16 s.checksum
  obtain ⟨u0, u1, hurg, hurg'⟩ := Octets.exists_word16 s.urgentPointer
  have hfixed : s.fixed = [s0, s1, d0, d1, q0, q1, q2, q3, a0, a1, a2, a3, o0, o1, w0, w1,
      c0, c1, u0, u1] := by
    rw [fixed, hsrc, hdst, hseq, hack, hoff, hwin, hsum, hurg]
    rfl
  rw [hfixed]
  simp only [List.cons_append, List.nil_append, ofOctets?, hsrc', hdst', hseq', hack', hoff',
    hwin', hsum', hurg']
  rfl

/-- **A segment reads back exactly if it is consistent.** -/
theorem ofOctets?_octets_iff (s : Segment) : ofOctets? s.octets = some s ↔ s.Consistent := by
  constructor
  · exact consistent_of_ofOctets?
  · intro h
    have hsize : s.headerSize - minHeaderSize = s.options.length := by
      rw [h]
      exact Nat.add_sub_cancel_left ..
    have hlength : s.headerSize ≤ minHeaderSize + (s.options ++ s.payload).length := by
      rw [h, List.length_append]
      omega
    have hmin : minHeaderSize ≤ s.headerSize := h ▸ Nat.le_add_right ..
    rw [octets, h.header_eq, List.append_assoc, ofOctets?_fixed_append, if_pos ⟨hmin, hlength⟩,
      hsize, List.take_left, List.drop_left]

/-! ### Edits -/

/-- The nine flag bits. -/
def flags (s : Segment) : UInt16 := s.offsetAndFlags &&& 0x01FF

/-- A word shifted up by twelve keeps its four low bits, and leaves room for nine flags. -/
theorem toNat_pack (word bits : UInt16) :
    ((word <<< 12) ||| (bits &&& 0x01FF)).toNat = 4096 * (word.toNat % 16) + bits.toNat % 512 := by
  have hbits : (bits &&& 0x01FF).toNat = bits.toNat % 2 ^ 9 := by
    rw [UInt16.toNat_and]
    exact Nat.and_two_pow_sub_one_eq_mod _ 9
  have hword : (word <<< 12).toNat = (word.toNat % 16) <<< 12 := by
    rw [UInt16.toNat_shiftLeft, Nat.shiftLeft_eq, Nat.shiftLeft_eq]
    change word.toNat * 4096 % 65536 = word.toNat % 16 * 4096
    omega
  rw [UInt16.toNat_or, hbits, hword, ← Nat.shiftLeft_add_eq_or_of_lt (by omega), Nat.shiftLeft_eq]
  omega

/-- The four high bits of a word, as a word shifted up by twelve. -/
theorem and_top (word : UInt16) : word &&& (0xF000 : UInt16) = (word >>> 12) <<< 12 := by
  apply UInt16.toBitVec_inj.1
  apply BitVec.eq_of_getLsbD_eq
  intro i hi
  interval_cases i <;> simp

theorem toNat_flags (s : Segment) : s.flags.toNat = s.offsetAndFlags.toNat % 512 := by
  rw [flags, UInt16.toNat_and]
  exact Nat.and_two_pow_sub_one_eq_mod _ 9

/-- Other flags leave the data offset alone. -/
@[simp] theorem dataOffset_setFlags (s : Segment) (bits : UInt16) :
    (s.setFlags bits).dataOffset = s.dataOffset := by
  have hs : s.offsetAndFlags.toNat < 65536 := s.offsetAndFlags.toNat_lt
  have htop : (s.offsetAndFlags >>> 12).toNat = s.offsetAndFlags.toNat / 4096 := by
    rw [UInt16.toNat_shiftRight, Nat.shiftRight_eq_div_pow]
    rfl
  simp only [dataOffset, setFlags]
  rw [and_top, toNat_pack, htop]
  omega

/-- Other flags leave a segment as consistent as it was. -/
theorem consistent_setFlags_iff (s : Segment) (bits : UInt16) :
    (s.setFlags bits).Consistent ↔ s.Consistent := by
  unfold Consistent headerSize
  rw [dataOffset_setFlags]
  rfl

/-- The length of options filled to whole words. -/
theorem length_options_setOptions (s : Segment) (options : Octets) :
    (s.setOptions options).options.length = (options.length + 3) / 4 * 4 := by
  simp [setOptions]

/-- The data offset counts the words of header and options, cut to four bits. -/
theorem dataOffset_setOptions (s : Segment) (options : Octets) :
    (s.setOptions options).dataOffset = (5 + (options.length + 3) / 4) % 16 := by
  have hwords : (UInt16.ofNat ((minHeaderSize + (options.length + 3) / 4 * 4) / 4)).toNat % 16 =
      (5 + (options.length + 3) / 4) % 16 := by
    rw [UInt16.toNat_ofNat', minHeaderSize]
    omega
  simp only [dataOffset, setOptions, Octets.length_resize]
  rw [toNat_pack, hwords]
  omega

/-- Other options leave the flags alone. -/
@[simp] theorem flags_setOptions (s : Segment) (options : Octets) :
    (s.setOptions options).flags = s.flags := by
  apply UInt16.toNat_inj.1
  rw [toNat_flags, toNat_flags]
  simp only [setOptions]
  rw [toNat_pack]
  omega

/-- **Options make a consistent header exactly if they are no longer than 40 octets:** a data
offset counts fifteen words at most. -/
theorem consistent_setOptions_iff (s : Segment) (options : Octets) :
    (s.setOptions options).Consistent ↔ options.length ≤ 40 := by
  unfold Consistent headerSize minHeaderSize
  rw [dataOffset_setOptions, length_options_setOptions]
  omega

/-- A change to a segment that touches its data offset or its options. -/
inductive Edit where
  | flags (bits : UInt16)
  | options (options : Octets)
deriving DecidableEq

/-- The segment after one change. -/
def edit (s : Segment) : Edit → Segment
  | .flags bits => s.setFlags bits
  | .options options => s.setOptions options

/-- The segment after some changes, first one first. -/
def editAll (s : Segment) (edits : List Edit) : Segment := edits.foldl edit s

/-- The options that were set last, if any were. -/
def lastOptions? : List Edit → Option Octets
  | [] => none
  | .flags _ :: rest => lastOptions? rest
  | .options options :: rest => (lastOptions? rest).or (some options)

/-- **Only the options set last decide whether a segment is consistent.** -/
theorem consistent_editAll_iff (s : Segment) (edits : List Edit) :
    (s.editAll edits).Consistent ↔
      match lastOptions? edits with
      | some options => options.length ≤ 40
      | none => s.Consistent := by
  induction edits generalizing s with
  | nil => rfl
  | cons e rest ih =>
    rw [editAll, List.foldl_cons]
    cases e with
    | flags bits =>
      refine (ih (s.setFlags bits)).trans ?_
      rw [lastOptions?]
      cases lastOptions? rest with
      | some last => rfl
      | none => exact s.consistent_setFlags_iff bits
    | options options =>
      refine (ih (s.setOptions options)).trans ?_
      rw [lastOptions?]
      cases lastOptions? rest with
      | some last => rfl
      | none => exact s.consistent_setOptions_iff options

/-- A segment as it is made: with all fields at their defaults, for two ports, or read from
an octet string. -/
inductive Made : Segment → Prop
  | default : Made {}
  | carrying (srcPort dstPort : UInt16) (seqNumber : UInt32) (payload : Octets) :
    Made { srcPort, dstPort, seqNumber, payload }
  | read {bs : Octets} {s : Segment} (h : ofOctets? bs = some s) : Made s

theorem Made.consistent {s : Segment} (h : Made s) : s.Consistent := by
  cases h with
  | default => decide
  | carrying => simp [Consistent, headerSize, dataOffset, minHeaderSize]
  | read h => exact consistent_of_ofOctets? h

/-- **A segment under edits.**  However it was made, and whatever flags and options it was
given, in any order, a segment has a data offset that counts its options, and reads back as
it was written, exactly if the options it was given last are no longer than 40 octets; and
then it has a checksum under every IPv4 header.  Options never touch the flags, and flags
never touch the data offset. -/
theorem consistent_after_edits {made : Segment} (h : Made made) (edits : List Edit) :
    let s := made.editAll edits
    let short := ∀ options, lastOptions? edits = some options → options.length ≤ 40
    ((5 ≤ s.dataOffset ∧ 4 * s.dataOffset = 20 + s.options.length) ↔ short) ∧
    (ofOctets? s.octets = some s ↔ short) ∧
    (short → s.headerWords?.isSome ∧ ∀ ip, (s.expectedChecksum? ip).isSome ∧
      (s.payload.length ≤ 65535 → ∀ ws, s.coveredWords? ip = some ws → Checksum.Fits ws)) ∧
    (∀ options, (s.setOptions options).flags = s.flags) ∧
    ∀ bits, (s.setFlags bits).dataOffset = s.dataOffset := by
  intro s short
  have hshort : s.Consistent ↔ short := by
    rw [consistent_editAll_iff]
    cases hlast : lastOptions? edits with
    | none => simp [short, hlast, h.consistent]
    | some last => simp [short, hlast]
  refine ⟨?_, ?_, fun hs => ?_, flags_setOptions s, dataOffset_setFlags s⟩
  · rw [← hshort]
    constructor
    · rintro ⟨-, hsize⟩
      exact hsize
    · intro hs
      exact ⟨hs.five_le, hs⟩
  · rw [← hshort]
    exact s.ofOctets?_octets_iff
  · have hwords := s.isSome_headerWords?.2 (hshort.2 hs).five_le
    refine ⟨hwords, fun ip => ⟨?_, fun hpayload ws => fits_coveredWords? hpayload⟩⟩
    rw [expectedChecksum?, Option.isSome_map]
    exact hwords

/-- Options that are too long do not matter once they are replaced. -/
theorem consistent_after_edits_replaced :
    let edits := [.options (List.replicate 41 1), .flags 0xFFFF, .options [2, 4, 5, 0xB4, 1]]
    let s := ({ srcPort := 80 } : Segment).editAll edits
    Made { srcPort := 80 } ∧ (∀ options, lastOptions? edits = some options → options.length ≤ 40) ∧
    4 * s.dataOffset = 20 + s.options.length ∧ ofOctets? s.octets = some s := by
  intro edits s
  have hmade : Made { srcPort := 80 } := .carrying 80 0 0 []
  have hshort : ∀ options, lastOptions? edits = some options → options.length ≤ 40 := by
    intro options h
    obtain rfl := Option.some.inj h
    decide
  obtain ⟨hoffset, hread, -⟩ := consistent_after_edits hmade edits
  exact ⟨hmade, hshort, (hoffset.2 hshort).2, hread.2 hshort⟩

/-- **41 octets of options break a fresh segment:** the data offset is cut to zero, the header
has no room for a checksum, and what is written does not read back. -/
theorem options_overflow_data_offset :
    Made {} ∧ (({} : Segment).setOptions (List.replicate 41 1)).dataOffset = 0 ∧
    (({} : Segment).setOptions (List.replicate 41 1)).options.length = 44 ∧
    (({} : Segment).setOptions (List.replicate 41 1)).headerWords? = none ∧
    (({} : Segment).setOptions (List.replicate 41 1)).expectedChecksum? {} = none ∧
    ofOctets? (({} : Segment).setOptions (List.replicate 41 1)).octets = none := by
  refine ⟨.default, ?_, ?_, ?_, ?_, ?_⟩ <;> decide

end Segment
end Tcp
end RemoteMemory
