/-
# What the checksum pass leaves behind

`update_checksums`, `SPEC_FULL.md`, section 4.4.

The pass treats a layer by what stands in front of it and what is behind it
(`Layer.sealBetween?`): a transport layer directly behind an IPv4 header gets the checksum
under that header, an IPv4 header gets the length of what follows and its own checksum,
and any other layer stays.  A sealed packet holds exactly that at every index
(`Layer.exists_getElem?_sealAll?`), and there is one unless a segment directly behind an IPv4
header is too short for its checksum (`Layer.isSome_sealAll?_iff`).

The pass can also be made in place, header by header: seal every header on its own first,
then go through the indices, and let each IPv4 header write itself and the layer behind it.
What one step writes no later step undoes, since lengths do not depend on checksums, and
an IPv4 header forgets what it held (`Packet.sealedInPlace?_eq`).
-/

import Mathlib
import RemoteMemory.Packet.Checksums
import RemoteMemory.Proofs.OnesComplement
import RemoteMemory.Proofs.SegmentHeader

namespace RemoteMemory

open Checksum

/-! ### The words under the checksum of a datagram -/

/-- The words that the checksum of a datagram covers. -/
def Udp.Datagram.coveredWords (d : Datagram) (ip : Ipv4.Header) : List UInt16 :=
  ip.pseudoWords Ipv4.protocolUdp d.length ++ d.headerWords ++ d.payload.words

theorem Udp.Datagram.expectedChecksum_eq (d : Datagram) (ip : Ipv4.Header) :
    d.expectedChecksum ip = wordChecksum (d.coveredWords ip) :=
  pseudoChecksum_eq_wordChecksum ..

theorem Udp.Datagram.fits_coveredWords {d : Datagram} (h : d.payload.length ≤ 65535)
    (ip : Ipv4.Header) : Fits (d.coveredWords ip) := by
  apply fits_of_length_le
  simp only [coveredWords, Ipv4.Header.pseudoWords, Ipv4.Address.words, headerWords,
    List.length_append, List.length_cons, List.length_nil, Octets.length_words]
  omega

namespace Layer

/-! ### One layer -/

/-- The IPv4 header that a layer is, if it is one. -/
def header? : Layer → Option Ipv4.Header
  | .ipv4 h => some h
  | _ => none

theorem isSome_header? (layer : Layer) : layer.header?.isSome = (layer.kind == .ipv4) := by
  cases layer <;> rfl

theorem header?_eq_none {layer : Layer} (h : layer.kind ≠ .ipv4) : layer.header? = none := by
  rw [← Option.not_isSome_iff_eq_none, isSome_header?]
  simpa using h

/-- A transport layer with the checksum under the IPv4 header directly in front of it, if
it has room for one; any other layer as it is. -/
def sealUnder? (ip : Ipv4.Header) : Layer → Option Layer
  | .udp d => some (.udp (d.sealed ip))
  | .tcp s => (s.sealed? ip).map .tcp
  | layer => some layer

/-- An IPv4 header with its length and checksum over the layers behind it; any other layer
as it is. -/
def sealOver (rest : List Layer) : Layer → Layer
  | .ipv4 h => .ipv4 (h.sealedOver rest)
  | layer => layer

/-- A layer as the pass leaves it, with the finished IPv4 header directly in front of it, if
there is one, and the layers behind it. -/
def sealBetween? (front : Option Ipv4.Header) (rest : List Layer) (layer : Layer) :
    Option Layer :=
  match front with
  | some ip => (layer.sealUnder? ip).map (sealOver rest)
  | none => some (layer.sealOver rest)

/-- The pass treats the first layer, and carries it along if it is an IPv4 header. -/
theorem sealAll?_cons (front : Option Ipv4.Header) (layer : Layer) (rest : List Layer) :
    sealAll? front (layer :: rest) =
      (sealBetween? front rest layer).bind fun layer' =>
        (sealAll? layer'.header? rest).map (layer' :: ·) := by
  cases front with
  | none => cases layer <;> rfl
  | some ip =>
    cases layer with
    | tcp s =>
      simp only [sealAll?, sealBetween?, sealUnder?]
      cases s.sealed? ip <;> rfl
    | _ => rfl

theorem sealBetween?_ipv4 (front : Option Ipv4.Header) (rest : List Layer) (ip : Ipv4.Header) :
    sealBetween? front rest (.ipv4 ip) = some (.ipv4 (ip.sealedOver rest)) := by
  cases front <;> rfl

theorem sealBetween?_tcp (ip : Ipv4.Header) (rest : List Layer) (s : Tcp.Segment) :
    sealBetween? (some ip) rest (.tcp s) =
      (s.expectedChecksum? ip).map fun c => .tcp { s with checksum := c } := by
  simp only [sealBetween?, sealUnder?, Tcp.Segment.sealed?, Option.map_map]
  rfl

/-- Without an IPv4 header in front, or without a checksum that needs one, a layer that is no
IPv4 header itself stays as it is. -/
theorem sealBetween?_eq_self {front : Option Ipv4.Header} {layer : Layer}
    (hlayer : layer.header? = none)
    (h : front = none ∨ layer.kind = .ethernet ∨ layer.kind = .request) (rest : List Layer) :
    sealBetween? front rest layer = some layer := by
  cases layer with
  | ipv4 ip => cases hlayer
  | ethernet _ | request _ => cases front <;> rfl
  | udp _ | tcp _ =>
    obtain rfl | h | h := h
    · rfl
    · cases h
    · cases h

/-- A layer without what the pass fills in. -/
def unsealed : Layer → Layer
  | .ipv4 h =>
    .ipv4 { h with
      totalLength := 0
      checksum := 0 }
  | .udp d => .udp { d with checksum := 0 }
  | .tcp s => .tcp { s with checksum := 0 }
  | layer => layer

@[simp] theorem kind_unsealed (layer : Layer) : layer.unsealed.kind = layer.kind := by
  cases layer <;> rfl

/-- The payload that a layer carries; none for a header alone. -/
def payload : Layer → Octets
  | .udp d => d.payload
  | .tcp s => s.payload
  | _ => []

@[simp] theorem payload_unsealed (layer : Layer) : layer.unsealed.payload = layer.payload := by
  cases layer <;> rfl

/-- **Sealing a layer changes nothing but lengths and checksums.** -/
theorem unsealed_of_sealBetween? {front : Option Ipv4.Header} {rest : List Layer}
    {layer layer' : Layer} (h : sealBetween? front rest layer = some layer') :
    layer'.unsealed = layer.unsealed := by
  cases layer with
  | ipv4 ip =>
    rw [sealBetween?_ipv4] at h
    obtain rfl := Option.some.inj h
    rfl
  | tcp s =>
    cases front with
    | none =>
      obtain rfl := Option.some.inj h
      rfl
    | some ip =>
      rw [sealBetween?_tcp] at h
      obtain ⟨c, -, rfl⟩ := Option.map_eq_some_iff.1 h
      rfl
  | _ =>
    cases front <;>
    · obtain rfl := Option.some.inj h
      rfl

theorem isSome_header?_of_sealBetween? {front : Option Ipv4.Header} {rest : List Layer}
    {layer layer' : Layer} (h : sealBetween? front rest layer = some layer') :
    layer'.header?.isSome = layer.header?.isSome := by
  rw [isSome_header?, isSome_header?, ← kind_unsealed, unsealed_of_sealBetween? h, kind_unsealed]

theorem isSome_sealBetween?_iff (front : Option Ipv4.Header) (rest : List Layer) (layer : Layer) :
    (sealBetween? front rest layer).isSome ↔
      ∀ s, layer = .tcp s → front.isSome → 5 ≤ s.dataOffset := by
  cases front with
  | none => simp [sealBetween?]
  | some ip =>
    cases layer with
    | tcp s =>
      simp only [sealBetween?, sealUnder?, Option.isSome_map, Tcp.Segment.isSome_sealed?]
      constructor
      · rintro h s' ⟨⟩ -
        exact h
      · intro h
        exact h s rfl rfl
    | _ => simp [sealBetween?, sealUnder?]

/-! ### All layers -/

/-- The IPv4 header directly in front of index `i`, given the one in front of the layers. -/
def frontOf (front : Option Ipv4.Header) (layers : List Layer) : ℕ → Option Ipv4.Header
  | 0 => front
  | i + 1 => layers[i]?.bind header?

theorem frontOf_cons_succ (front : Option Ipv4.Header) (layer : Layer) (rest : List Layer)
    (i : ℕ) : frontOf front (layer :: rest) (i + 1) = frontOf layer.header? rest i := by
  cases i <;> rfl

theorem isSome_frontOf_none_iff {layers : List Layer} {i : ℕ} :
    (frontOf none layers i).isSome ↔ ∃ j ip, i = j + 1 ∧ layers[j]? = some (.ipv4 ip) := by
  cases i with
  | zero => simp [frontOf]
  | succ i =>
    constructor
    · intro h
      obtain ⟨ip, hip⟩ := Option.isSome_iff_exists.1 h
      obtain ⟨layer, hlayer, hheader⟩ := Option.bind_eq_some_iff.1 hip
      cases layer with
      | ipv4 ip' => exact ⟨i, ip', rfl, hlayer⟩
      | _ => cases hheader
    · rintro ⟨j, ip, hj, hip⟩
      obtain rfl := Nat.succ.inj hj
      rw [frontOf, hip]
      rfl

/-- Whether an IPv4 header is in front is a matter of the kinds of the layers. -/
theorem isSome_frontOf_congr {layers layers' : List Layer}
    (h : layers'.map kind = layers.map kind) (front : Option Ipv4.Header) (i : ℕ) :
    (frontOf front layers' i).isSome = (frontOf front layers i).isSome := by
  cases i with
  | zero => rfl
  | succ i =>
    have hi : (layers'.map kind)[i]? = (layers.map kind)[i]? := by rw [h]
    rw [List.getElem?_map, List.getElem?_map] at hi
    simp only [frontOf]
    cases hl : layers[i]? <;> cases hl' : layers'[i]? <;> simp_all [isSome_header?]

/-- **A sealed packet at every index:** the layer, sealed between the layer in front of it,
as that finally is, and the layers behind it. -/
theorem exists_getElem?_sealAll? {front : Option Ipv4.Header} {layers layers' : List Layer}
    (h : sealAll? front layers = some layers') {i : ℕ} {layer : Layer}
    (hlayer : layers[i]? = some layer) :
    ∃ layer', layers'[i]? = some layer' ∧
      sealBetween? (frontOf front layers' i) (layers.drop (i + 1)) layer = some layer' := by
  induction layers generalizing front layers' i with
  | nil => cases hlayer
  | cons first rest ih =>
    rw [sealAll?_cons] at h
    obtain ⟨first', hfirst, htail⟩ := Option.bind_eq_some_iff.1 h
    obtain ⟨rest', hrest, rfl⟩ := Option.map_eq_some_iff.1 htail
    cases i with
    | zero =>
      obtain rfl := Option.some.inj hlayer
      exact ⟨first', rfl, hfirst⟩
    | succ i =>
      rw [frontOf_cons_succ]
      exact ih hrest hlayer

/-- **A packet is sealed unless a segment is too short:** one directly behind an IPv4 header,
with a data offset below 5. -/
theorem isSome_sealAll?_iff (front : Option Ipv4.Header) (layers : List Layer) :
    (sealAll? front layers).isSome ↔
      ∀ i s, layers[i]? = some (.tcp s) → (frontOf front layers i).isSome → 5 ≤ s.dataOffset := by
  induction layers generalizing front with
  | nil => simp [sealAll?]
  | cons layer rest ih =>
    -- whether there is a header in front is a matter of the kinds, which sealing keeps
    have hcarry : ∀ {layer'}, sealBetween? front rest layer = some layer' → ∀ i,
        (frontOf layer'.header? rest i).isSome = (frontOf layer.header? rest i).isSome := by
      intro layer' hlayer i
      cases i with
      | zero => exact isSome_header?_of_sealBetween? hlayer
      | succ i => rfl
    rw [sealAll?_cons]
    constructor
    · intro h i s hs hfront
      obtain ⟨layers', hlayers⟩ := Option.isSome_iff_exists.1 h
      obtain ⟨layer', hlayer, htail⟩ := Option.bind_eq_some_iff.1 hlayers
      obtain ⟨rest', hrest, -⟩ := Option.map_eq_some_iff.1 htail
      cases i with
      | zero =>
        have hsome : (sealBetween? front rest layer).isSome := by rw [hlayer]; rfl
        exact (isSome_sealBetween?_iff ..).1 hsome s (Option.some.inj hs) hfront
      | succ i =>
        rw [frontOf_cons_succ, ← hcarry hlayer] at hfront
        exact (ih _).1 (by rw [hrest]; rfl) i s hs hfront
    · intro h
      have hfirst : (sealBetween? front rest layer).isSome :=
        (isSome_sealBetween?_iff ..).2 fun s hs => h 0 s (congrArg some hs)
      obtain ⟨layer', hlayer⟩ := Option.isSome_iff_exists.1 hfirst
      have hrest : (sealAll? layer'.header? rest).isSome := by
        refine (ih _).2 fun i s hs hfront => h (i + 1) s hs ?_
        rw [frontOf_cons_succ, ← hcarry hlayer]
        exact hfront
      rw [hlayer, Option.bind_some, Option.isSome_map]
      exact hrest

/-- **A pass changes nothing but lengths and checksums.** -/
theorem map_unsealed_of_sealAll? {front : Option Ipv4.Header} {layers layers' : List Layer}
    (h : sealAll? front layers = some layers') :
    layers'.map unsealed = layers.map unsealed := by
  induction layers generalizing front layers' with
  | nil =>
    obtain rfl := Option.some.inj h
    rfl
  | cons layer rest ih =>
    rw [sealAll?_cons] at h
    obtain ⟨layer', hlayer, htail⟩ := Option.bind_eq_some_iff.1 h
    obtain ⟨rest', hrest, rfl⟩ := Option.map_eq_some_iff.1 htail
    rw [List.map_cons, List.map_cons, unsealed_of_sealBetween? hlayer, ih hrest]

/-- What does not depend on lengths and checksums is the same for every layer of a sealed
packet. -/
theorem map_of_sealAll? {α : Type} {f : Layer → α} (hf : ∀ layer, f layer.unsealed = f layer)
    {front : Option Ipv4.Header} {layers layers' : List Layer}
    (h : sealAll? front layers = some layers') : layers'.map f = layers.map f := by
  rw [← show f ∘ unsealed = f from funext hf, ← List.map_map, ← List.map_map,
    map_unsealed_of_sealAll? h]

/-! ### The pass in place -/

/-- One step of the pass in place: an IPv4 header at index `i` writes its length and
checksum, and then the checksum of the layer behind it.  Any other layer is left alone. -/
def sealAt? (layers : List Layer) (i : ℕ) : Option (List Layer) :=
  match layers[i]? with
  | some (.ipv4 h) =>
    let h := h.sealedOver (layers.drop (i + 1))
    let layers := layers.set i (.ipv4 h)
    match layers[i + 1]? with
    | some next => (next.sealUnder? h).map (layers.set (i + 1))
    | none => some layers
  | _ => some layers

/-- Without a header in front, the pass goes on behind a layer that is no IPv4 header. -/
theorem sealAll?_none_cons {layer : Layer} (h : layer.header? = none) (rest : List Layer) :
    sealAll? none (layer :: rest) = (sealAll? none rest).map (layer :: ·) := by
  cases layer with
  | ipv4 ip => cases h
  | _ => rfl

/-- Carrying a header along or sealing the layer behind it at once is the same. -/
theorem sealAll?_some_cons (ip : Ipv4.Header) (layer : Layer) (rest : List Layer) :
    sealAll? (some ip) (layer :: rest) =
      (layer.sealUnder? ip).bind fun layer' => sealAll? none (layer' :: rest) := by
  cases layer with
  | tcp s =>
    simp only [sealAll?, sealUnder?]
    cases s.sealed? ip <;> rfl
  | _ => rfl

/-- A step at a layer that is no IPv4 header changes nothing. -/
theorem sealAt?_of_header?_eq_none {layer : Layer} (h : layer.header? = none)
    (outer rest : List Layer) :
    sealAt? (outer ++ layer :: rest) outer.length = some (outer ++ layer :: rest) := by
  have hat : (outer ++ layer :: rest)[outer.length]? = some layer := by simp
  rw [sealAt?, hat]
  cases layer with
  | ipv4 ip => cases h
  | _ => rfl

/-- A step at an innermost IPv4 header writes the header. -/
theorem sealAt?_ipv4_last (ip : Ipv4.Header) (outer : List Layer) :
    sealAt? (outer ++ [Layer.ipv4 ip]) outer.length =
      some (outer ++ [Layer.ipv4 (ip.sealedOver [])]) := by
  simp [sealAt?]

/-- A step at an IPv4 header writes the header and the layer directly behind it. -/
theorem sealAt?_ipv4_cons (ip : Ipv4.Header) (outer : List Layer) (next : Layer)
    (more : List Layer) :
    sealAt? (outer ++ .ipv4 ip :: next :: more) outer.length =
      (next.sealUnder? (ip.sealedOver (next :: more))).map fun next' =>
        outer ++ .ipv4 (ip.sealedOver (next :: more)) :: next' :: more := by
  have hbehind : (outer ++ .ipv4 ip :: next :: more).drop (outer.length + 1) = next :: more := by
    simp
  have hset : ∀ head : Layer, (outer ++ head :: next :: more).set (outer.length + 1) =
      fun next' => outer ++ head :: next' :: more := by
    intro head
    funext next'
    rw [List.set_append_right _ _ (Nat.le_add_right ..), Nat.add_sub_cancel_left]
    rfl
  simp [sealAt?, hbehind, hset]

/-- **The steps at the indices of the inner layers** leave the outer ones alone and make the
recursive pass over the inner ones. -/
theorem foldlM_sealAt? (n : ℕ) (outer inner : List Layer) (hn : inner.length = n) :
    (List.range' outer.length n).foldlM sealAt? (outer ++ inner) =
      (sealAll? none inner).map (outer ++ ·) := by
  induction n generalizing outer inner with
  | zero =>
    obtain rfl := List.length_eq_zero_iff.1 hn
    rfl
  | succ n ih =>
    obtain ⟨layer, rest, rfl⟩ := List.exists_cons_of_length_eq_add_one hn
    have hrest : rest.length = n := Nat.succ.inj hn
    -- the layer at the next index is done, and joins the outer ones
    have hnext : ∀ layer' rest', rest'.length = n →
        (List.range' (outer.length + 1) n).foldlM sealAt? (outer ++ layer' :: rest') =
          (sealAll? none rest').map (outer ++ layer' :: ·) := by
      intro layer' rest' hrest'
      have h := ih (outer ++ [layer']) rest' hrest'
      simpa only [List.length_append, List.length_cons, List.length_nil, Nat.zero_add,
        List.append_assoc, List.cons_append, List.nil_append] using h
    rw [List.range'_succ, List.foldlM_cons]
    cases layer with
    | ipv4 ip =>
      cases rest with
      | nil =>
        rw [sealAt?_ipv4_last, Option.bind_eq_bind, Option.bind_some, hnext _ _ hrest]
        rfl
      | cons next more =>
        rw [sealAt?_ipv4_cons, sealAll?, sealAll?_some_cons]
        cases next.sealUnder? (ip.sealedOver (next :: more)) with
        | none => rfl
        | some next' =>
          rw [Option.map_some, Option.bind_eq_bind, Option.bind_some, Option.bind_some,
            hnext _ (next' :: more) hrest, Option.map_map]
          rfl
    | _ =>
      rw [sealAt?_of_header?_eq_none rfl, sealAll?_none_cons rfl, Option.bind_eq_bind,
        Option.bind_some, hnext _ _ hrest, Option.map_map]
      rfl

/-- What leaves the length of every layer alone leaves their sum alone. -/
theorem totalSize_map {f : Layer → Layer} (hf : ∀ layer, (f layer).wireSize = layer.wireSize)
    (layers : List Layer) : totalSize (layers.map f) = totalSize layers := by
  induction layers with
  | nil => rfl
  | cons layer rest ih => rw [List.map_cons, totalSize, totalSize, ih, hf]

theorem wireSize_sealed (layer : Layer) : layer.sealed.wireSize = layer.wireSize := by
  cases layer <;> rfl

/-- A header sealed on its own before is sealed over the layers behind it all the same. -/
theorem sealBetween?_sealed (front : Option Ipv4.Header) (rest : List Layer) (layer : Layer) :
    sealBetween? front (rest.map sealed) layer.sealed = sealBetween? front rest layer := by
  cases layer with
  | ipv4 ip =>
    have hover : ip.sealed.sealedOver (rest.map sealed) = ip.sealedOver rest := by
      simp only [Ipv4.Header.sealedOver, totalSize_map wireSize_sealed]
      rfl
    cases front <;> exact congrArg (some ∘ Layer.ipv4) hover
  | tcp s =>
    cases front with
    | none => rfl
    | some ip =>
      simp only [sealBetween?, sealed, sealUnder?, Option.map_map]
      rfl
  | _ => cases front <;> rfl

theorem sealAll?_map_sealed (front : Option Ipv4.Header) (layers : List Layer) :
    sealAll? front (layers.map sealed) = sealAll? front layers := by
  induction layers generalizing front with
  | nil => rfl
  | cons layer rest ih =>
    rw [List.map_cons, sealAll?_cons, sealAll?_cons, sealBetween?_sealed]
    simp only [ih]

end Layer

namespace Packet

/-- The packet sealed in place: every IPv4 header on its own, and then step by step from the
outermost layer inward. -/
def sealedInPlace? (p : Packet) : Option Packet :=
  ((List.range p.size).foldlM Layer.sealAt? (p.layers.map Layer.sealed)).map Packet.mk

/-- **Sealing in place is sealing:** no step disturbs what an earlier one wrote. -/
theorem sealedInPlace?_eq (p : Packet) : p.sealedInPlace? = p.sealed? := by
  have h := Layer.foldlM_sealAt? p.size [] (p.layers.map Layer.sealed) (List.length_map _)
  rw [Layer.sealAll?_map_sealed] at h
  rw [sealedInPlace?, sealed?, List.range_eq_range']
  refine congrArg _ (h.trans ?_)
  cases Layer.sealAll? none p.layers <;> rfl

/-- Lengths and checksums of a packet are filled in, and nothing else is changed. -/
structure FilledIn (p q : Packet) : Prop where
  kinds : q.layers.map Layer.kind = p.layers.map Layer.kind
  /-- An IPv4 header has the length of itself and all layers behind it, and its own
  checksum over that length. -/
  ipv4 : ∀ (i : ℕ) ip, p.layers[i]? = some (.ipv4 ip) → ∃ length : UInt16,
    length.toNat = (4 * ip.ihl.toNat + Layer.totalSize (p.layers.drop (i + 1))) % 65536 ∧
    q.layers[i]? = some (.ipv4
      { ip with
        totalLength := length
        checksum := { ip with totalLength := length : Ipv4.Header }.expectedChecksum })
  /-- A datagram directly behind an IPv4 header has its checksum under that header as it
  finally is. -/
  udp : ∀ (i : ℕ) ip d, q.layers[i]? = some (.ipv4 ip) → p.layers[i + 1]? = some (.udp d) →
    q.layers[i + 1]? = some (.udp { d with checksum := d.expectedChecksum ip })
  /-- So has a segment. -/
  tcp : ∀ (i : ℕ) ip s, q.layers[i]? = some (.ipv4 ip) → p.layers[i + 1]? = some (.tcp s) →
    ∃ c, s.expectedChecksum? ip = some c ∧
      q.layers[i + 1]? = some (.tcp { s with checksum := c })
  /-- A transport layer with anything else in front of it stays as it is. -/
  detached : ∀ (i : ℕ) (l : Layer), p.layers[i]? = some l → l.kind = .udp ∨ l.kind = .tcp →
    (∀ (j : ℕ) ip, i = j + 1 → p.layers[j]? ≠ some (.ipv4 ip)) → q.layers[i]? = some l
  other : ∀ (i : ℕ) (l : Layer), p.layers[i]? = some l → l.kind = .ethernet ∨ l.kind = .request →
    q.layers[i]? = some l

/-- No sum behind a checksum of the packet wraps. -/
def SumsFit (p : Packet) : Prop :=
  ∀ (i : ℕ) ip, p.layers[i]? = some (.ipv4 ip) →
    Fits (ip.checksumWords ip.totalLength) ∧
    (∀ d, p.layers[i + 1]? = some (.udp d) → Fits (d.coveredWords ip)) ∧
    ∀ s ws, p.layers[i + 1]? = some (.tcp s) → s.coveredWords? ip = some ws → Fits ws

/-- **A sealed packet has its lengths and checksums filled in.** -/
theorem filledIn_of_sealed? {p q : Packet} (h : p.sealed? = some q) : p.FilledIn q := by
  obtain ⟨layers, hall, rfl⟩ := Option.map_eq_some_iff.1 h
  have hkinds := Layer.map_of_sealAll? Layer.kind_unsealed hall
  refine ⟨hkinds, fun i ip hip => ?_, fun i ip d hip hd => ?_, fun i ip s hip hs => ?_,
    fun i l hl hkind hfront => ?_, fun i l hl hkind => ?_⟩
  · obtain ⟨l', hl', hseal⟩ := Layer.exists_getElem?_sealAll? hall hip
    refine ⟨.ofNat (ip.declaredSize + Layer.totalSize (p.layers.drop (i + 1))), ?_, ?_⟩
    · rw [UInt16.toNat_ofNat']
      rfl
    · rw [Layer.sealBetween?_ipv4] at hseal
      exact hl'.trans hseal.symm
  · obtain ⟨l', hl', hseal⟩ := Layer.exists_getElem?_sealAll? hall hd
    rw [Layer.frontOf, hip] at hseal
    exact hl'.trans hseal.symm
  · obtain ⟨l', hl', hseal⟩ := Layer.exists_getElem?_sealAll? hall hs
    rw [Layer.frontOf, hip] at hseal
    obtain ⟨c, hc, rfl⟩ := Option.map_eq_some_iff.1 ((Layer.sealBetween?_tcp ..).symm.trans hseal)
    exact ⟨c, hc, hl'⟩
  · obtain ⟨l', hl', hseal⟩ := Layer.exists_getElem?_sealAll? hall hl
    have hnone : Layer.frontOf none layers i = none := by
      rw [← Option.not_isSome_iff_eq_none, Layer.isSome_frontOf_congr hkinds,
        Layer.isSome_frontOf_none_iff]
      rintro ⟨j, ip, hj, hip⟩
      exact hfront j ip hj hip
    have hheader : l.header? = none :=
      Layer.header?_eq_none (by rcases hkind with hk | hk <;> simp [hk])
    rw [Layer.sealBetween?_eq_self hheader (.inl hnone)] at hseal
    exact hl'.trans hseal.symm
  · obtain ⟨l', hl', hseal⟩ := Layer.exists_getElem?_sealAll? hall hl
    have hheader : l.header? = none :=
      Layer.header?_eq_none (by rcases hkind with hk | hk <;> simp [hk])
    rw [Layer.sealBetween?_eq_self hheader (.inr hkind)] at hseal
    exact hl'.trans hseal.symm

/-- The sums of a packet fit where no payload is longer than a length field can say. -/
theorem sumsFit {p : Packet} (h : ∀ l ∈ p.layers, l.payload.length ≤ 65535) : p.SumsFit := by
  intro i ip _
  refine ⟨fits_of_length_le ?_, fun d hd => ?_, fun s ws hs hws => ?_⟩
  · simp [Ipv4.Header.checksumWords, Ipv4.Address.words]
  · exact Udp.Datagram.fits_coveredWords (h _ (List.mem_of_getElem? hd)) ip
  · exact Tcp.Segment.fits_coveredWords? (h _ (List.mem_of_getElem? hs)) hws

/-- **There is a sealed packet unless a segment directly behind an IPv4 header is too short**
to hold a checksum. -/
theorem isSome_sealed?_iff (p : Packet) :
    p.sealed?.isSome ↔ ¬ ∃ (i : ℕ) (ip : Ipv4.Header) (s : Tcp.Segment),
      p.layers[i]? = some (.ipv4 ip) ∧ p.layers[i + 1]? = some (.tcp s) ∧ s.dataOffset < 5 := by
  rw [sealed?, Option.isSome_map, Layer.isSome_sealAll?_iff]
  constructor
  · rintro h ⟨i, ip, s, hip, hs, hshort⟩
    have := h (i + 1) s hs (Layer.isSome_frontOf_none_iff.2 ⟨i, ip, rfl, hip⟩)
    omega
  · intro h i s hs hfront
    obtain ⟨j, ip, rfl, hip⟩ := Layer.isSome_frontOf_none_iff.1 hfront
    by_contra hshort
    exact h ⟨j, ip, s, hip, hs, Nat.lt_of_not_le hshort⟩

/-- A layer of a sealed packet is one of the packet, but for lengths and checksums. -/
theorem exists_unsealed_eq_of_mem {p q : Packet} (h : p.sealed? = some q) {l : Layer}
    (hl : l ∈ q.layers) : ∃ l' ∈ p.layers, l'.unsealed = l.unsealed := by
  obtain ⟨layers, hall, rfl⟩ := Option.map_eq_some_iff.1 h
  have hmem : l.unsealed ∈ p.layers.map Layer.unsealed :=
    Layer.map_unsealed_of_sealAll? hall ▸ List.mem_map_of_mem hl
  obtain ⟨l', hl', hunsealed⟩ := List.mem_map.1 hmem
  exact ⟨l', hl', hunsealed⟩

/-- **What the checksum pass leaves behind.**  Made in place, index by index, or from the
outermost layer inward, the pass has the same outcome.  It has one exactly if no segment
directly behind an IPv4 header has a data offset below 5.  Then all lengths and checksums
are filled in and nothing else is changed; and where no payload is longer than 65535
octets, no sum behind a checksum wraps. -/
theorem sealed?_fills_in (p : Packet) (h : ∀ l ∈ p.layers, l.payload.length ≤ 65535) :
    p.sealedInPlace? = p.sealed? ∧
    (p.sealed?.isSome ↔ ¬ ∃ (i : ℕ) (ip : Ipv4.Header) (s : Tcp.Segment),
      p.layers[i]? = some (.ipv4 ip) ∧ p.layers[i + 1]? = some (.tcp s) ∧ s.dataOffset < 5) ∧
    ∀ q, p.sealed? = some q → p.FilledIn q ∧ q.SumsFit := by
  refine ⟨p.sealedInPlace?_eq, p.isSome_sealed?_iff, fun q hq => ⟨filledIn_of_sealed? hq, ?_⟩⟩
  refine sumsFit fun l hl => ?_
  obtain ⟨l', hl', hunsealed⟩ := exists_unsealed_eq_of_mem hq hl
  rw [← l.payload_unsealed, ← hunsealed, l'.payload_unsealed]
  exact h l' hl'

/-- A segment in two IPv4 headers, one inside the other. -/
theorem sealed?_fills_in_nested :
    let p : Packet := ⟨[.ipv4 { protocol := 4 }, .ipv4 { protocol := Ipv4.protocolTcp },
      .tcp { payload := [0xAA, 0xBB, 0xCC] }]⟩
    (∀ l ∈ p.layers, l.payload.length ≤ 65535) ∧
    ∃ q, p.sealed? = some q ∧ p.FilledIn q ∧ q.SumsFit := by
  intro p
  have hp : ∀ l ∈ p.layers, l.payload.length ≤ 65535 := by decide
  obtain ⟨-, hsome, hq⟩ := sealed?_fills_in p hp
  have hno : ¬ ∃ (i : ℕ) (ip : Ipv4.Header) (s : Tcp.Segment),
      p.layers[i]? = some (.ipv4 ip) ∧ p.layers[i + 1]? = some (.tcp s) ∧ s.dataOffset < 5 := by
    rintro ⟨i, ip, s, -, hs, hshort⟩
    have hmem : Layer.tcp s ∈ p.layers := List.mem_of_getElem? hs
    simp only [p, List.mem_cons, reduceCtorEq, Layer.tcp.injEq, false_or, List.not_mem_nil,
      or_false] at hmem
    rw [hmem] at hshort
    exact absurd hshort (by decide)
  obtain ⟨q, hsealed⟩ := Option.isSome_iff_exists.1 (hsome.2 hno)
  exact ⟨hp, q, hsealed, hq q hsealed⟩

end Packet
end RemoteMemory
