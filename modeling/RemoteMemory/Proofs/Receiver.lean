/-
# A sealed packet verifies at the receiver

`update_checksums` and `to_bytes`, `SPEC_FULL.md`, section 4.4.

The layers of a packet lie one behind the other on the wire, each where the lengths of
those before it say (`Packet.octets_slice`), if IPv4 headers declare no options.  So a
receiver that cuts out the header or the transport layer gets its octets, and sums the
words the checksum covers, and the checksum with them.

A header, a datagram and a segment that carry their checksum verify to 0
(`Ipv4.Header.checksum_octets`, `Udp.Datagram.checksum_covered`,
`Tcp.Segment.checksum_covered`), hence so does every layer of a sealed packet.  With another
checksum they do not, unless it is all ones where 0 is expected
(`Ipv4.Header.checksum_octets_eq_zero_iff`, `Udp.Datagram.checksum_covered_eq_zero_iff`,
`Tcp.Segment.checksum_covered_eq_zero_iff`).
-/

import Mathlib
import RemoteMemory.Proofs.Sealing
import RemoteMemory.Proofs.SegmentHeader

namespace RemoteMemory

open Checksum

/-! ### Where a layer lies on the wire -/

namespace Layer

/-- Layers are written in the length they declare, if IPv4 headers declare no options. -/
theorem length_flatMap_octets {layers : List Layer}
    (h : ∀ ip, Layer.ipv4 ip ∈ layers → ip.ihl = 5) :
    (layers.flatMap octets).length = totalSize layers := by
  induction layers with
  | nil => rfl
  | cons l ls ih =>
    have hl : l.octets.length = l.wireSize := by
      refine length_octets fun ip hip => h ip ?_
      rw [hip]
      exact List.mem_cons_self
    have hls := ih fun ip hip => h ip (List.mem_cons_of_mem _ hip)
    rw [List.flatMap_cons, List.length_append, hl, hls, totalSize]

end Layer

namespace Packet

/-- A packet is written as the layers before one of them, that layer, and the layers after it. -/
theorem octets_eq_append {p : Packet} {i : ℕ} {l : Layer} (hl : p.layers[i]? = some l) :
    p.octets = (p.layers.take i).flatMap Layer.octets ++
      (l.octets ++ (p.layers.drop (i + 1)).flatMap Layer.octets) := by
  have hsplit : p.layers = p.layers.take i ++ l :: p.layers.drop (i + 1) := by
    obtain ⟨hi, rfl⟩ := List.getElem?_eq_some_iff.1 hl
    rw [← List.drop_eq_getElem_cons hi, List.take_append_drop]
  rw [← List.flatMap_cons, ← List.flatMap_append, ← hsplit]
  rfl

/-- **A layer lies behind the lengths of those before it.** -/
theorem octets_slice {p : Packet} (h : ∀ ip, Layer.ipv4 ip ∈ p.layers → ip.ihl = 5) {i : ℕ}
    {l : Layer} (hl : p.layers[i]? = some l) :
    (p.octets.drop (Layer.totalSize (p.layers.take i))).take l.wireSize = l.octets := by
  have hmem : l ∈ p.layers := List.mem_of_getElem? hl
  have hbefore : ((p.layers.take i).flatMap Layer.octets).length =
      Layer.totalSize (p.layers.take i) :=
    Layer.length_flatMap_octets fun ip hip => h ip (List.mem_of_mem_take hip)
  have hsize : l.octets.length = l.wireSize := by
    refine Layer.length_octets fun ip hip => h ip ?_
    rw [← hip]
    exact hmem
  rw [octets_eq_append hl, List.drop_left' hbefore, List.take_left' hsize]

end Packet

/-! ### Layers that carry their checksum -/

@[simp] theorem Ipv4.Address.words_octets_append (a : Address) (bs : Octets) :
    (a.octets ++ bs).words = a.words ++ bs.words := rfl

@[simp] theorem Ipv4.Address.words_octets (a : Address) : a.octets.words = a.words := rfl

/-- The words of a written header are those its checksum covers, with the checksum in place
of the zero. -/
theorem Ipv4.Header.words_octets {h : Header} (hihl : h.ihl.toNat < 16) :
    h.octets.words =
      [Octets.word16 ((h.version <<< 4) ||| (h.ihl &&& 0x0F)) h.tos, h.totalLength, h.id,
        h.flagsFragment, Octets.word16 h.ttl h.protocol, h.checksum] ++ h.src.words ++
        h.dst.words := by
  have hand : h.ihl &&& 0x0F = h.ihl := by
    apply UInt8.toNat_inj.1
    rw [UInt8.toNat_and]
    exact Nat.and_two_pow_sub_one_of_lt_two_pow (n := 4) hihl
  simp [octets, hand]

/-- **A header verifies exactly if it carries its checksum,** or all ones in place of the checksum
0. -/
theorem Ipv4.Header.checksum_octets_eq_zero_iff {h : Header} (hihl : h.ihl.toNat < 16) :
    RemoteMemory.checksum h.octets = 0 ↔
      h.checksum = h.expectedChecksum ∨ h.expectedChecksum = 0 ∧ h.checksum = 0xFFFF := by
  rw [checksum_eq_wordChecksum, words_octets hihl]
  refine wordChecksum_eq_zero_iff_of_total ?_ ?_
  · exact fits_of_length_le (by simp [Ipv4.Address.words])
  · simp only [checksumWords_eq, List.cons_append, List.nil_append, total_cons, total_append,
      UInt16.toNat_zero]
    omega

/-- **A header that carries its checksum verifies.** -/
theorem Ipv4.Header.checksum_octets {h : Header} (hihl : h.ihl.toNat < 16)
    (hsealed : h.checksum = h.expectedChecksum) : RemoteMemory.checksum h.octets = 0 :=
  (checksum_octets_eq_zero_iff hihl).2 (.inl hsealed)

/-- What a receiver sums for a transport layer behind an IPv4 header: both addresses, the
protocol, the length of the layer, and the layer. -/
def Ipv4.Header.covered (ip : Header) (protocol : UInt8) (length : UInt16) (layer : Octets) :
    Octets :=
  ip.src.octets ++ ip.dst.octets ++ [0, protocol] ++ Octets.ofWord16 length ++ layer

theorem Ipv4.Header.words_covered (ip : Header) (protocol : UInt8) (length : UInt16)
    (layer : Octets) :
    (ip.covered protocol length layer).words = ip.pseudoWords protocol length ++ layer.words := by
  have hprotocol : Octets.word16 0 protocol = protocol.toUInt16 := by
    apply UInt16.toNat_inj.1
    simp [Octets.toNat_word16]
  simp [covered, pseudoWords, hprotocol]

/-- **A datagram verifies exactly if it carries its checksum,** or all ones in place of the
checksum 0. -/
theorem Udp.Datagram.checksum_covered_eq_zero_iff {d : Datagram} (h : d.payload.length ≤ 65535)
    (ip : Ipv4.Header) :
    RemoteMemory.checksum (ip.covered Ipv4.protocolUdp d.length d.octets) = 0 ↔
      d.checksum = d.expectedChecksum ip ∨ d.expectedChecksum ip = 0 ∧ d.checksum = 0xFFFF := by
  have hwords : d.octets.words =
      [d.srcPort, d.dstPort, d.length, d.checksum] ++ d.payload.words := by
    simp [octets, header]
  rw [checksum_eq_wordChecksum, Ipv4.Header.words_covered, hwords, d.expectedChecksum_eq]
  refine wordChecksum_eq_zero_iff_of_total ?_ ?_
  · apply fits_of_length_le
    simp only [Ipv4.Header.pseudoWords, Ipv4.Address.words, List.length_append, List.length_cons,
      List.length_nil, Octets.length_words]
    omega
  · simp only [coveredWords, headerWords, total_append, total_cons, total_nil, UInt16.toNat_zero]
    omega

/-- **A datagram that carries its checksum verifies.** -/
theorem Udp.Datagram.checksum_covered {d : Datagram} (h : d.payload.length ≤ 65535)
    {ip : Ipv4.Header} (hsealed : d.checksum = d.expectedChecksum ip) :
    RemoteMemory.checksum (ip.covered Ipv4.protocolUdp d.length d.octets) = 0 :=
  (checksum_covered_eq_zero_iff h ip).2 (.inl hsealed)

/-- **A segment verifies exactly if it carries its checksum,** or all ones in place of the checksum
0, whatever its options. -/
theorem Tcp.Segment.checksum_covered_eq_zero_iff {s : Segment} (h : s.payload.length ≤ 65535)
    (hroom : 5 ≤ s.dataOffset) {ip : Ipv4.Header} {c : UInt16}
    (hc : s.expectedChecksum? ip = some c) :
    RemoteMemory.checksum (ip.covered Ipv4.protocolTcp (.ofNat s.wireSize) s.octets) = 0 ↔
      s.checksum = c ∨ c = 0 ∧ s.checksum = 0xFFFF := by
  have heven : s.header.length % 2 = 0 := by
    rw [length_header, headerSize]
    omega
  have hwords :
      s.octets.words = s.front.words ++ s.checksum :: s.back.words ++ s.payload.words := by
    rw [octets, Octets.words_append heven, words_header hroom]
  rw [expectedChecksum?_eq, coveredWords?_eq hroom] at hc
  obtain rfl := Option.some.inj hc
  rw [checksum_eq_wordChecksum, Ipv4.Header.words_covered, hwords]
  refine wordChecksum_eq_zero_iff_of_total ?_ ?_
  · have hsize := s.headerSize_le
    apply fits_of_length_le
    simp only [Ipv4.Header.pseudoWords, Ipv4.Address.words, List.length_append, List.length_cons,
      List.length_nil, Octets.length_words, length_front, length_back]
    omega
  · simp only [total_append, total_cons, UInt16.toNat_zero]
    omega

/-- **A segment that carries its checksum verifies,** whatever its options. -/
theorem Tcp.Segment.checksum_covered {s : Segment} (h : s.payload.length ≤ 65535)
    (hroom : 5 ≤ s.dataOffset) {ip : Ipv4.Header}
    (hsealed : s.expectedChecksum? ip = some s.checksum) :
    RemoteMemory.checksum (ip.covered Ipv4.protocolTcp (.ofNat s.wireSize) s.octets) = 0 :=
  (checksum_covered_eq_zero_iff h hroom hsealed).2 (.inl rfl)

/-! ### The packet as it arrives -/

namespace Layer

theorem wireSize_le_totalSize {layers : List Layer} {l : Layer} (h : l ∈ layers) :
    l.wireSize ≤ totalSize layers := by
  obtain ⟨before, after, rfl⟩ := List.append_of_mem h
  rw [totalSize_append, totalSize]
  omega

end Layer

namespace Packet

/-- Where layer `i` begins on the wire. -/
def offset (p : Packet) (i : ℕ) : ℕ := Layer.totalSize (p.layers.take i)

/-- Sealing leaves the header lengths of IPv4 headers alone. -/
theorem ihl_of_sealed? {p q : Packet} (h : p.sealed? = some q)
    (hihl : ∀ ip, Layer.ipv4 ip ∈ p.layers → ip.ihl = 5) {ip : Ipv4.Header}
    (hip : Layer.ipv4 ip ∈ q.layers) : ip.ihl = 5 := by
  obtain ⟨l, hl, hunsealed⟩ := exists_unsealed_eq_of_mem h hip
  cases l with
  | ipv4 ip' =>
    have hfield : ip'.ihl = ip.ihl := by
      simp only [Layer.unsealed, Layer.ipv4.injEq, Ipv4.Header.mk.injEq] at hunsealed
      exact hunsealed.2.1
    rw [← hfield]
    exact hihl ip' hl
  | _ => cases hunsealed

namespace FilledIn

variable {p q : Packet} {i : ℕ} {ip : Ipv4.Header}

/-- An IPv4 header that is filled in carries its checksum, and its addresses stay. -/
theorem exists_header (h : p.FilledIn q) (hip : p.layers[i]? = some (.ipv4 ip)) :
    ∃ ip' : Ipv4.Header, q.layers[i]? = some (.ipv4 ip') ∧ ip'.src = ip.src ∧ ip'.dst = ip.dst ∧
      ip'.checksum = ip'.expectedChecksum := by
  obtain ⟨length, -, hip'⟩ := h.ipv4 i ip hip
  exact ⟨_, hip', rfl, rfl, rfl⟩

/-- A datagram that is filled in carries its checksum. -/
theorem exists_datagram (h : p.FilledIn q) (hip : q.layers[i]? = some (.ipv4 ip))
    {d : Udp.Datagram} (hd : p.layers[i + 1]? = some (.udp d)) :
    ∃ d' : Udp.Datagram, q.layers[i + 1]? = some (.udp d') ∧ d'.payload = d.payload ∧
      d'.checksum = d'.expectedChecksum ip :=
  ⟨_, h.udp i ip d hip hd, rfl, rfl⟩

/-- A segment that is filled in carries its checksum. -/
theorem exists_segment (h : p.FilledIn q) (hip : q.layers[i]? = some (.ipv4 ip))
    {s : Tcp.Segment} (hs : p.layers[i + 1]? = some (.tcp s)) :
    ∃ s' : Tcp.Segment, q.layers[i + 1]? = some (.tcp s') ∧ s'.payload = s.payload ∧
      s'.dataOffset = s.dataOffset ∧ s'.expectedChecksum? ip = some s'.checksum := by
  obtain ⟨c, hc, hs'⟩ := h.tcp i ip s hip hs
  exact ⟨_, hs', rfl, rfl, (s.expectedChecksum?_mk_checksum c ip).trans hc⟩

end FilledIn

/-- **A sealed packet verifies at the receiver.**  If a packet fits into 65535 octets, its
IPv4 headers declare no options, and segments directly behind an IPv4 header have room for a
checksum, it can be sealed.  On the wire the octets of every IPv4 header then verify to 0,
and so do those of a datagram or a segment directly behind it, under the addresses of the
header, the protocol and the length: whatever the payload, and whatever the options. -/
theorem sealed?_verifies (p : Packet) (hsize : p.wireSize ≤ 65535)
    (hihl : ∀ ip, Layer.ipv4 ip ∈ p.layers → ip.ihl = 5)
    (hroom : ∀ (i : ℕ) (ip : Ipv4.Header) (s : Tcp.Segment), p.layers[i]? = some (.ipv4 ip) →
      p.layers[i + 1]? = some (.tcp s) → 5 ≤ s.dataOffset) :
    ∃ q, p.sealed? = some q ∧
      ∀ (i : ℕ) (ip : Ipv4.Header), p.layers[i]? = some (.ipv4 ip) →
        checksum ((q.octets.drop (q.offset i)).take 20) = 0 ∧
        (∀ d, p.layers[i + 1]? = some (.udp d) →
          checksum (ip.src.octets ++ ip.dst.octets ++ [0, 17] ++
            Octets.ofWord16 (.ofNat d.wireSize) ++
            (q.octets.drop (q.offset (i + 1))).take d.wireSize) = 0) ∧
        ∀ s, p.layers[i + 1]? = some (.tcp s) →
          checksum (ip.src.octets ++ ip.dst.octets ++ [0, 6] ++
            Octets.ofWord16 (.ofNat s.wireSize) ++
            (q.octets.drop (q.offset (i + 1))).take s.wireSize) = 0 := by
  have hsome : p.sealed?.isSome := by
    rw [isSome_sealed?_iff]
    rintro ⟨i, ip, s, hip, hs, hshort⟩
    have := hroom i ip s hip hs
    omega
  obtain ⟨q, hq⟩ := Option.isSome_iff_exists.1 hsome
  have hfilled := filledIn_of_sealed? hq
  have hihl' : ∀ ip, Layer.ipv4 ip ∈ q.layers → ip.ihl = 5 := fun ip => ihl_of_sealed? hq hihl
  -- no layer is longer than the packet, so the sum under its checksum fits
  have hbound : ∀ {j : ℕ} {l : Layer}, p.layers[j]? = some l → l.wireSize ≤ 65535 :=
    fun hl => (Layer.wireSize_le_totalSize (List.mem_of_getElem? hl)).trans hsize
  refine ⟨q, hq, fun i ip hip => ?_⟩
  obtain ⟨ip', hip', hsrc, hdst, hheader⟩ := hfilled.exists_header hip
  rw [← hsrc, ← hdst]
  refine ⟨?_, fun d hd => ?_, fun s hs => ?_⟩
  · have h5 := hihl' ip' (List.mem_of_getElem? hip')
    have hslice : (q.octets.drop (q.offset i)).take (4 * ip'.ihl.toNat) = ip'.octets :=
      octets_slice hihl' hip'
    rw [h5] at hslice
    refine (congrArg checksum hslice).trans (Ipv4.Header.checksum_octets ?_ hheader)
    rw [h5]
    decide
  · obtain ⟨d', hd', hpayload, hchecksum⟩ := hfilled.exists_datagram hip' hd
    have hwire : d.wireSize = d'.wireSize := by
      rw [Udp.Datagram.wireSize, Udp.Datagram.wireSize, hpayload]
    have hlen : 8 + d.payload.length ≤ 65535 := hbound hd
    have hslice : (q.octets.drop (q.offset (i + 1))).take d'.wireSize = d'.octets :=
      octets_slice hihl' hd'
    rw [hwire, hslice]
    exact Udp.Datagram.checksum_covered (by rw [hpayload]; omega) hchecksum
  · obtain ⟨s', hs', hpayload, hoffset, hchecksum⟩ := hfilled.exists_segment hip' hs
    have hwire : s.wireSize = s'.wireSize := by
      rw [Tcp.Segment.wireSize, Tcp.Segment.wireSize, Tcp.Segment.headerSize,
        Tcp.Segment.headerSize, hpayload, hoffset]
    have hlen : s.headerSize + s.payload.length ≤ 65535 := hbound hs
    have hslice : (q.octets.drop (q.offset (i + 1))).take s'.wireSize = s'.octets :=
      octets_slice hihl' hs'
    rw [hwire, hslice]
    exact Tcp.Segment.checksum_covered (by rw [hpayload]; omega) (hoffset ▸ hroom i ip s hip hs)
      hchecksum

/-- A segment with an odd payload and more options than its data offset declares, and a
datagram behind it that has no IPv4 header in front. -/
theorem sealed?_verifies_cut_options :
    let s : Tcp.Segment :=
      { offsetAndFlags := 0x6000, options := [2, 4, 5, 0xB4, 1], payload := [0xAA] }
    let p : Packet :=
      ⟨[.ethernet {}, .ipv4 { protocol := Ipv4.protocolTcp }, .tcp s, .udp { payload := [0xBB] }]⟩
    p.wireSize ≤ 65535 ∧ (∀ ip, Layer.ipv4 ip ∈ p.layers → ip.ihl = 5) ∧ 5 ≤ s.dataOffset ∧
    ∃ q, p.sealed? = some q ∧ checksum ((q.octets.drop (q.offset 1)).take 20) = 0 ∧
      checksum (Ipv4.Address.zero.octets ++ Ipv4.Address.zero.octets ++ [0, 6] ++
        Octets.ofWord16 25 ++ (q.octets.drop (q.offset 2)).take 25) = 0 := by
  intro s p
  have hsize : p.wireSize ≤ 65535 := by decide
  have hihl : ∀ ip, Layer.ipv4 ip ∈ p.layers → ip.ihl = 5 := by
    intro ip hip
    simp only [p, List.mem_cons, reduceCtorEq, Layer.ipv4.injEq, false_or, List.not_mem_nil,
      or_false] at hip
    rw [hip]
  have hroom : 5 ≤ s.dataOffset := by decide
  obtain ⟨q, hq, hverifies⟩ := sealed?_verifies p hsize hihl fun i ip t _ ht => by
    have hmem : Layer.tcp t ∈ p.layers := List.mem_of_getElem? ht
    simp only [p, List.mem_cons, reduceCtorEq, Layer.tcp.injEq, false_or, List.not_mem_nil,
      or_false] at hmem
    rw [hmem]
    exact hroom
  obtain ⟨hheader, -, hsegments⟩ := hverifies 1 _ rfl
  have hsegment := hsegments s rfl
  rw [show s.wireSize = 25 by decide] at hsegment
  exact ⟨hsize, hihl, hroom, q, hq, hheader, hsegment⟩

end Packet

end RemoteMemory
