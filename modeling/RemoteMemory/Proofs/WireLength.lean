/-
# Declared lengths and written octets

`on_wire_len`, `total_len` and `to_bytes`, `SPEC_FULL.md`, sections 4.2 and 4.4.

Every layer declares how long it is, from a fixed size, a field and the payload it carries, and is
written without looking at that.  What the lengths are needed for: where a layer begins on the wire
(`Packet.offset`), and the total length of an IPv4 header, which counts it and all behind it.

| layer | header declared | header written |
| --- | --- | --- |
| link, request, UDP | a fixed size | that size |
| TCP | four times the data offset | as many octets, cut or filled with zeros |
| IPv4 | four times the header length | 20 octets |

So all layers but IPv4 headers keep what they declare, and an IPv4 header does exactly if its
header length is 5 (`Layer.length_octets_iff`).  In a packet of such headers every layer lies where
the lengths say, and total lengths count the octets that are written
(`Packet.declared_lengths_are_written`).

Headers that are read keep their length under the same condition, and reading does not look at it:
an IPv4 header read in front of options declares them, and is written without
(`Packet.read_layers_keep_length`, `Packet.read_header_loses_options`).
-/

import Mathlib
import RemoteMemory.Proofs.HeaderValidity
import RemoteMemory.Proofs.Resealing

namespace RemoteMemory

namespace Layer

/-! ### One layer -/

/-- The header that a layer writes in front of the payload it carries. -/
def headerOctets : Layer → Octets
  | .ethernet h => h.octets
  | .ipv4 h => h.octets
  | .udp d => d.header
  | .tcp s => s.header
  | .request h => h.octets

theorem octets_eq_append (l : Layer) : l.octets = l.headerOctets ++ l.payload := by
  cases l with
  | udp _ | tcp _ => rfl
  | _ => exact (List.append_nil _).symm

theorem wireSize_eq_add (l : Layer) : l.wireSize = l.headerSize + l.payload.length := by
  cases l <;> rfl

/-- **A header is written in the length it declares,** unless it is an IPv4 header that declares
more or less than five words. -/
theorem length_headerOctets_iff {l : Layer} :
    l.headerOctets.length = l.headerSize ↔ ∀ ip, l = .ipv4 ip → ip.ihl = 5 := by
  cases l with
  | ipv4 ip =>
    have hihl : (∀ ip', Layer.ipv4 ip = .ipv4 ip' → ip'.ihl = 5) ↔ ip.ihl.toNat = 5 := by
      constructor
      · intro h
        rw [h ip rfl]
        rfl
      · rintro h _ ⟨⟩
        exact UInt8.toNat_inj.1 h
    rw [hihl, headerOctets, headerSize, Ipv4.Header.length_octets, Ipv4.Header.size,
      Ipv4.Header.declaredSize]
    omega
  | _ => simp [headerOctets, headerSize]

/-- **A layer is written in the length it declares,** with the same exception. -/
theorem length_octets_iff {l : Layer} :
    l.octets.length = l.wireSize ↔ ∀ ip, l = .ipv4 ip → ip.ihl = 5 := by
  rw [← length_headerOctets_iff, octets_eq_append, wireSize_eq_add, List.length_append,
    Nat.add_right_cancel_iff]

/-- **A layer that is read declares no options** exactly if it is no IPv4 header, or was read behind
the octet of version 4 and five words. -/
theorem ihl_eq_five_iff_of_ofOctets? {k : LayerKind} {bs : Octets} {l : Layer}
    (h : ofOctets? k bs = some l) :
    (∀ ip, l = .ipv4 ip → ip.ihl = 5) ↔ (k = .ipv4 → bs.head? = some 0x45) := by
  cases k with
  | ipv4 =>
    obtain ⟨ip, hread, rfl⟩ := Option.map_eq_some_iff.1 h
    obtain ⟨first, hfirst, hoctet, -⟩ := Ipv4.Header.exists_head_of_ofOctets? hread
    have hstandard : ip.ihl = 5 ↔ first = 0x45 := by
      rw [← UInt8.toNat_inj, ← UInt8.toNat_inj, hoctet]
      change ip.ihl.toNat = 5 ↔ 64 + ip.ihl.toNat = 69
      omega
    rw [hfirst]
    simp [hstandard]
  | _ =>
    obtain ⟨header, -, rfl⟩ := Option.map_eq_some_iff.1 h
    simp

/-! ### All layers -/

/-- The header lengths, in 32-bit words, of the IPv4 headers among some layers. -/
def headerLengths (layers : List Layer) : List ℕ :=
  layers.filterMap fun l => l.header?.map fun ip => ip.ihl.toNat

theorem headerLengths_cons (l : Layer) (rest : List Layer) :
    headerLengths (l :: rest) = headerLengths [l] ++ headerLengths rest := by
  rw [headerLengths, ← List.singleton_append, List.filterMap_append]
  rfl

theorem length_octets_add (l : Layer) :
    l.octets.length + 4 * (headerLengths [l]).sum =
      l.wireSize + 20 * (headerLengths [l]).length := by
  cases l with
  | ipv4 ip =>
    simp [headerLengths, header?, octets, wireSize, Ipv4.Header.size, Ipv4.Header.declaredSize,
      Nat.add_comm]
  | _ => simp [headerLengths, header?, octets, wireSize]

/-- **The balance of a stack:** in place of the words that its IPv4 headers declare, twenty octets
are written for each of them. -/
theorem length_flatMap_octets_add (layers : List Layer) :
    (layers.flatMap octets).length + 4 * (headerLengths layers).sum =
      totalSize layers + 20 * (headerLengths layers).length := by
  induction layers with
  | nil => rfl
  | cons l rest ih =>
    have hl := length_octets_add l
    rw [List.flatMap_cons, totalSize, headerLengths_cons, List.length_append, List.length_append,
      List.sum_append]
    omega

end Layer

namespace Packet

/-! ### A packet and its sealed form -/

theorem length_octets {p : Packet} (h : ∀ ip, Layer.ipv4 ip ∈ p.layers → ip.ihl = 5) :
    p.octets.length = p.wireSize :=
  Layer.length_flatMap_octets h

/-- From where a layer begins to the end, as many octets are written as it and those behind it
declare. -/
theorem length_drop_octets {p : Packet} (h : ∀ ip, Layer.ipv4 ip ∈ p.layers → ip.ihl = 5) (i : ℕ) :
    (p.octets.drop (p.offset i)).length = Layer.totalSize (p.layers.drop i) := by
  have hsplit := Layer.totalSize_append (p.layers.take i) (p.layers.drop i)
  rw [List.take_append_drop] at hsplit
  rw [List.length_drop, length_octets h, wireSize, hsplit, offset, Nat.add_sub_cancel_left]

/-- Layers begin in a sealed packet where they do in the packet. -/
theorem totalSize_of_sealed? {p q : Packet} (h : p.sealed? = some q) (i : ℕ) :
    Layer.totalSize (q.layers.take i) = Layer.totalSize (p.layers.take i) ∧
      Layer.totalSize (q.layers.drop i) = Layer.totalSize (p.layers.drop i) := by
  have hunsealed := (sameToSeal_of_sealed? h).unsealed
  constructor
  · apply Layer.totalSize_eq_of_map_unsealed
    rw [List.map_take, hunsealed, List.map_take]
  · apply Layer.totalSize_eq_of_map_unsealed
    rw [List.map_drop, hunsealed, List.map_drop]

/-- **A total length counts what the header and the layers behind it declare,** cut to 16 bits. -/
theorem exists_totalLength {p q : Packet} (h : p.sealed? = some q) {i : ℕ} {ip : Ipv4.Header}
    (hip : p.layers[i]? = some (.ipv4 ip)) :
    ∃ ip' : Ipv4.Header, q.layers[i]? = some (.ipv4 ip') ∧
      ip'.totalLength.toNat = Layer.totalSize (p.layers.drop i) % 65536 := by
  obtain ⟨length, hlength, hip'⟩ := (filledIn_of_sealed? h).ipv4 i ip hip
  have hdrop : p.layers.drop i = .ipv4 ip :: p.layers.drop (i + 1) := by
    obtain ⟨hi, hlayer⟩ := List.getElem?_eq_some_iff.1 hip
    rw [List.drop_eq_getElem_cons hi, hlayer]
  refine ⟨_, hip', ?_⟩
  rw [hdrop]
  exact hlength

/-- **A total length counts the octets that are written,** as far as 16 bits do, where no IPv4
header declares options. -/
theorem exists_totalLength_eq_length {p q : Packet} (h : p.sealed? = some q)
    (hihl : ∀ ip, Layer.ipv4 ip ∈ p.layers → ip.ihl = 5) {i : ℕ} {ip : Ipv4.Header}
    (hip : p.layers[i]? = some (.ipv4 ip)) :
    ∃ ip' : Ipv4.Header, q.layers[i]? = some (.ipv4 ip') ∧
      ip'.totalLength.toNat = (q.octets.drop (q.offset i)).length % 65536 ∧
      ((q.octets.drop (q.offset i)).length ≤ 65535 →
        ip'.totalLength.toNat = (q.octets.drop (q.offset i)).length) := by
  have hihl' : ∀ ip, Layer.ipv4 ip ∈ q.layers → ip.ihl = 5 := fun ip => ihl_of_sealed? h hihl
  rw [length_drop_octets hihl', (totalSize_of_sealed? h i).2]
  obtain ⟨ip', hip', hlength⟩ := exists_totalLength h hip
  refine ⟨ip', hip', hlength, fun hfits => ?_⟩
  rw [hlength]
  exact Nat.mod_eq_of_lt (Nat.lt_succ_of_le hfits)

/-- **Declared lengths match written octets.**  If no IPv4 header of a packet declares options, the
packet is written in the length it declares, and every layer in its own, from the sum of the lengths
before it on; whatever the data offsets of segments, the options, the payloads and the order of the
layers are.  If the packet can be sealed, the sealed packet is as long, and its layers begin where
they did; and the total length of every IPv4 header is the number of octets from its first to the
last of the packet, as long as 16 bits hold it. -/
theorem declared_lengths_are_written (p : Packet)
    (h : ∀ ip, Layer.ipv4 ip ∈ p.layers → ip.ihl = 5) :
    p.octets.length = p.wireSize ∧
    (∀ (i : ℕ) (l : Layer), p.layers[i]? = some l →
      l.octets.length = l.wireSize ∧ p.offset i + l.wireSize ≤ p.octets.length ∧
      (p.octets.drop (p.offset i)).take l.wireSize = l.octets) ∧
    ∀ q, p.sealed? = some q →
      q.octets.length = p.octets.length ∧ (∀ i, q.offset i = p.offset i) ∧
      ∀ (i : ℕ) (ip : Ipv4.Header), p.layers[i]? = some (.ipv4 ip) →
        ∃ ip' : Ipv4.Header, q.layers[i]? = some (.ipv4 ip') ∧
          ip'.totalLength.toNat = (q.octets.drop (q.offset i)).length % 65536 ∧
          ((q.octets.drop (q.offset i)).length ≤ 65535 →
            ip'.totalLength.toNat = (q.octets.drop (q.offset i)).length) := by
  refine ⟨length_octets h, fun i l hl => ?_, fun q hq => ⟨?_, fun i => ?_, fun i ip =>
    exists_totalLength_eq_length hq h⟩⟩
  · have hsize : l.octets.length = l.wireSize :=
      Layer.length_octets_iff.2 fun ip hip => h ip (hip ▸ List.mem_of_getElem? hl)
    have hfront : ((p.layers.take i).flatMap Layer.octets).length = p.offset i :=
      Layer.length_flatMap_octets fun ip hip => h ip (List.mem_of_mem_take hip)
    refine ⟨hsize, ?_, octets_slice h hl⟩
    rw [octets_eq_append hl, List.length_append, List.length_append, hfront, hsize]
    omega
  · have hihl' : ∀ ip, Layer.ipv4 ip ∈ q.layers → ip.ihl = 5 := fun ip => ihl_of_sealed? hq h
    have hsame := (totalSize_of_sealed? hq 0).2
    rw [length_octets hihl', length_octets h]
    exact hsame
  · exact (totalSize_of_sealed? hq i).1

/-- Two IPv4 headers, one inside the other, a segment whose header is cut to nothing, and a datagram
with no IPv4 header in front. -/
theorem declared_lengths_are_written_cut_header :
    let s : Tcp.Segment := { offsetAndFlags := 0x0000, options := [2, 4], payload := [0xAA] }
    let p : Packet :=
      ⟨[.ipv4 { protocol := 4 }, .ipv4 {}, .ethernet {}, .tcp s, .udp { payload := [0xBB] }]⟩
    (∀ ip, Layer.ipv4 ip ∈ p.layers → ip.ihl = 5) ∧ s.header = [] ∧ p.octets.length = 64 ∧
    ∃ q ip', p.sealed? = some q ∧ q.layers[1]? = some (.ipv4 ip') ∧ q.octets.length = 64 ∧
      (q.octets.drop (q.offset 1)).length = 44 ∧ ip'.totalLength = 44 := by
  intro s p
  have hihl : ∀ ip, Layer.ipv4 ip ∈ p.layers → ip.ihl = 5 := by
    intro ip hip
    simp only [p, List.mem_cons, reduceCtorEq, Layer.ipv4.injEq, List.not_mem_nil, or_false] at hip
    rcases hip with rfl | rfl <;> rfl
  obtain ⟨hlength, -, hsealed⟩ := declared_lengths_are_written p hihl
  have hsome : p.sealed?.isSome := rfl
  obtain ⟨q, hq⟩ := Option.isSome_iff_exists.1 hsome
  obtain ⟨hsame, hoffset, htotal⟩ := hsealed q hq
  obtain ⟨ip', hip', -, hexact⟩ := htotal 1 {} rfl
  have hsize : p.octets.length = 64 := hlength.trans (by decide)
  have hrest : (q.octets.drop (q.offset 1)).length = 44 := by
    rw [List.length_drop, hsame, hsize, hoffset]
    rfl
  refine ⟨hihl, by decide, hsize, q, ip', hq, hip', hsame.trans hsize, hrest, ?_⟩
  apply UInt16.toNat_inj.1
  rw [hexact (by omega), hrest]
  rfl

/-! ### Layers that are read -/

/-- **Headers that are read keep their length unless they are IPv4 headers with options.**  Of a
packet whose layers were all read from octet strings, a layer is written with a header, and in a
length, as it declares exactly if it was not read as an IPv4 header, or was read behind the octet
`0x45`.  The declared length of the packet counts every word that an IPv4 header declares, and five
are written for each.  So if all IPv4 headers were read behind `0x45`, the packet is written in the
length it declares, and the total lengths in its sealed form count the octets that are written. -/
theorem read_layers_keep_length (p : Packet)
    (h : ∀ l ∈ p.layers, ∃ k bs, Layer.ofOctets? k bs = some l) :
    (∀ l ∈ p.layers, ∀ (k : LayerKind) (bs : Octets), Layer.ofOctets? k bs = some l →
      l.octets = l.headerOctets ++ l.payload ∧
      (l.headerOctets.length = l.headerSize ↔ (k = .ipv4 → bs.head? = some 0x45)) ∧
      (l.octets.length = l.wireSize ↔ (k = .ipv4 → bs.head? = some 0x45))) ∧
    p.octets.length + 4 * (Layer.headerLengths p.layers).sum =
      p.wireSize + 20 * (Layer.headerLengths p.layers).length ∧
    ((∀ l ∈ p.layers, ∀ bs, Layer.ofOctets? .ipv4 bs = some l → bs.head? = some 0x45) →
      p.octets.length = p.wireSize ∧
      ∀ q, p.sealed? = some q → ∀ (i : ℕ) (ip : Ipv4.Header), p.layers[i]? = some (.ipv4 ip) →
        ∃ ip' : Ipv4.Header, q.layers[i]? = some (.ipv4 ip') ∧
          ((q.octets.drop (q.offset i)).length ≤ 65535 →
            ip'.totalLength.toNat = (q.octets.drop (q.offset i)).length)) := by
  refine ⟨fun l _ k bs hread => ?_, Layer.length_flatMap_octets_add p.layers, fun hfirst => ?_⟩
  · rw [Layer.length_headerOctets_iff, Layer.length_octets_iff,
      Layer.ihl_eq_five_iff_of_ofOctets? hread]
    exact ⟨l.octets_eq_append, Iff.rfl, Iff.rfl⟩
  · have hihl : ∀ ip, Layer.ipv4 ip ∈ p.layers → ip.ihl = 5 := by
      intro ip hip
      obtain ⟨k, bs, hread⟩ := h _ hip
      refine (Layer.ihl_eq_five_iff_of_ofOctets? hread).2 (fun hk => ?_) ip rfl
      exact hfirst _ hip bs (hk ▸ hread)
    refine ⟨length_octets hihl, fun q hq i ip hip => ?_⟩
    obtain ⟨ip', hip', -, hlength⟩ := exists_totalLength_eq_length hq hihl hip
    exact ⟨ip', hip', hlength⟩

/-- A segment with options behind an IPv4 header, both read. -/
theorem read_layers_keep_length_options :
    let header : Ipv4.Header := { protocol := Ipv4.protocolTcp }
    let s : Tcp.Segment :=
      { offsetAndFlags := 0x6000, options := [2, 4, 5, 0xB4], payload := [0xAA] }
    let p : Packet := ⟨[.ipv4 header, .tcp s]⟩
    Layer.ofOctets? .ipv4 header.octets = some (.ipv4 header) ∧
    Layer.ofOctets? .tcp s.octets = some (.tcp s) ∧
    s.header.length = 24 ∧ p.octets.length = 45 ∧
    ∃ q ip', p.sealed? = some q ∧ q.layers[0]? = some (.ipv4 ip') ∧
      (q.octets.length ≤ 65535 → ip'.totalLength.toNat = q.octets.length) := by
  intro header s p
  have hheader : Layer.ofOctets? .ipv4 header.octets = some (.ipv4 header) := by decide
  have hsegment : Layer.ofOctets? .tcp s.octets = some (.tcp s) := by decide
  have hread : ∀ l ∈ p.layers, ∃ k bs, Layer.ofOctets? k bs = some l := by
    intro l hl
    simp only [p, List.mem_cons, List.not_mem_nil, or_false] at hl
    rcases hl with rfl | rfl
    · exact ⟨_, _, hheader⟩
    · exact ⟨_, _, hsegment⟩
  -- the header length 5 says what the first octet was
  have hfirst : ∀ l ∈ p.layers, ∀ bs, Layer.ofOctets? .ipv4 bs = some l →
      bs.head? = some 0x45 := by
    intro l hl bs hbs
    refine (Layer.ihl_eq_five_iff_of_ofOctets? hbs).1 (fun ip hip => ?_) rfl
    simp only [p, List.mem_cons, List.not_mem_nil, or_false] at hl
    rcases hl with rfl | rfl
    · cases hip
      rfl
    · cases hip
  obtain ⟨hlayer, -, hpacket⟩ := read_layers_keep_length p hread
  obtain ⟨-, hlength, -⟩ := hlayer (.tcp s) (by simp [p]) .tcp s.octets hsegment
  obtain ⟨hwritten, hsealed⟩ := hpacket hfirst
  have hsome : p.sealed?.isSome := by decide
  obtain ⟨q, hq⟩ := Option.isSome_iff_exists.1 hsome
  obtain ⟨ip', hip', htotal⟩ := hsealed q hq 0 header rfl
  exact ⟨hheader, hsegment, (hlength.2 nofun).trans (by decide), hwritten.trans (by decide), q,
    ip', hq, hip', htotal⟩

/-- **An IPv4 header read in front of options loses them:** one of six words declares 24 octets, in
its packet too, and is written in 20; and its total length counts the 24. -/
theorem read_header_loses_options :
    let bs : Octets := [0x46, 0, 0, 24, 0, 0, 0, 0, 64, 17, 0, 0, 192, 168, 2, 1, 192, 168, 2, 2,
      1, 1, 1, 1]
    ∃ ip ip' q, Layer.ofOctets? .ipv4 bs = some (.ipv4 ip) ∧
      (Layer.ipv4 ip).headerSize = 24 ∧ (Packet.mk [.ipv4 ip]).wireSize = 24 ∧
      (Packet.mk [.ipv4 ip]).octets.length = 20 ∧ (Packet.mk [.ipv4 ip]).sealed? = some q ∧
      q.layers = [.ipv4 ip'] ∧ ip'.totalLength = 24 ∧ q.octets.length = 20 := by
  intro bs
  refine ⟨_, _, _, rfl, rfl, rfl, ?_, rfl, rfl, rfl, ?_⟩
  · decide
  · simp [octets, Layer.octets, Ipv4.Header.size]

end Packet

end RemoteMemory
