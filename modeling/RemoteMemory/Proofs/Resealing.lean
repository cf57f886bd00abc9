/-
# Sealing forgets what it fills in

`update_checksums`, `SPEC_FULL.md`, section 4.4: "running it twice yields identical fields".

Two packets may differ in what the checksum pass fills in: lengths and checksums of IPv4
headers, and checksums of transport layers directly behind one (`Packet.SameToSeal`).  The pass
makes the same packet of both, or none of either.

The pass treats a layer by its own fields, the finished header in front of it and the length
of what is behind it.  No length depends on a checksum (`Layer.wireSize_unsealed`) and no
checksum covers the one it replaces (`Layer.sealBetween?_unsealed`), so what a layer holds of
the old ones does not count (`Layer.sealBetween?_congr`), and neither does it for the layers
after each other (`Layer.sealAll?_congr`).  A sealed packet differs from the packet in what
was filled in only, so sealing it again changes nothing.
-/

import Mathlib
import RemoteMemory.Proofs.Sealing

namespace RemoteMemory

namespace Layer

/-- Lengths do not depend on what is filled in. -/
@[simp] theorem wireSize_unsealed (layer : Layer) : layer.unsealed.wireSize = layer.wireSize := by
  cases layer <;> rfl

theorem totalSize_eq_of_map_unsealed {layers layers' : List Layer}
    (h : layers'.map unsealed = layers.map unsealed) : totalSize layers' = totalSize layers := by
  rw [← totalSize_map wireSize_unsealed layers', h, totalSize_map wireSize_unsealed]

/-- Only the length of the layers behind a header counts. -/
theorem sealOver_congr {rest rest' : List Layer} (h : totalSize rest' = totalSize rest) :
    sealOver rest' = sealOver rest := by
  funext layer
  cases layer with
  | ipv4 ip =>
    simp only [sealOver, Ipv4.Header.sealedOver, h]
  | _ => rfl

/-- **Where a layer is sealed, what it held does not count:** an IPv4 header anywhere, and a
transport layer with an IPv4 header in front. -/
theorem sealBetween?_unsealed {front : Option Ipv4.Header} {layer : Layer}
    (h : front = none → layer.kind ≠ .udp ∧ layer.kind ≠ .tcp) (rest : List Layer) :
    sealBetween? front rest layer.unsealed = sealBetween? front rest layer := by
  cases layer with
  | ethernet _ | request _ => rfl
  | ipv4 ip => rw [unsealed, sealBetween?_ipv4, sealBetween?_ipv4]; rfl
  | udp d =>
    cases front with
    | none => exact absurd rfl (h rfl).1
    | some ip => rfl
  | tcp s =>
    cases front with
    | none => exact absurd rfl (h rfl).2
    | some ip =>
      rw [unsealed, sealBetween?_tcp, sealBetween?_tcp, Tcp.Segment.expectedChecksum?_mk_checksum]

/-- **Layers that differ in what is filled in are sealed alike,** in front of layers that are
as long. -/
theorem sealBetween?_congr {front : Option Ipv4.Header} {rest rest' : List Layer}
    (hrest : totalSize rest' = totalSize rest) {layer layer' : Layer}
    (hlayer : layer'.unsealed = layer.unsealed)
    (hdetached : front = none → layer.kind = .udp ∨ layer.kind = .tcp → layer' = layer) :
    sealBetween? front rest' layer' = sealBetween? front rest layer := by
  have hover : sealBetween? front rest' layer' = sealBetween? front rest layer' := by
    unfold sealBetween?
    rw [sealOver_congr hrest]
  rw [hover]
  by_cases hfree : front = none ∧ (layer.kind = .udp ∨ layer.kind = .tcp)
  · rw [hdetached hfree.1 hfree.2]
  · have hkind : layer'.kind = layer.kind := by rw [← kind_unsealed, hlayer, kind_unsealed]
    have hsealed : front = none → layer.kind ≠ .udp ∧ layer.kind ≠ .tcp := by
      intro hnone
      rw [← not_or]
      exact fun h => hfree ⟨hnone, h⟩
    rw [← sealBetween?_unsealed hsealed, ← hlayer, sealBetween?_unsealed (hkind ▸ hsealed)]

/-- Layers that may differ in what a pass fills in, given the IPv4 header in front of them. -/
structure SameToSeal (front : Option Ipv4.Header) (layers layers' : List Layer) : Prop where
  unsealed : layers'.map unsealed = layers.map unsealed
  detached : ∀ (i : ℕ) (l : Layer), layers[i]? = some l → l.kind = .udp ∨ l.kind = .tcp →
    frontOf front layers i = none → layers'[i]? = some l

/-- **A pass over layers that differ in what it fills in has one outcome.** -/
theorem sealAll?_congr {front : Option Ipv4.Header} {layers layers' : List Layer}
    (h : SameToSeal front layers layers') : sealAll? front layers' = sealAll? front layers := by
  induction layers generalizing front layers' with
  | nil => rw [List.map_eq_nil_iff.1 h.unsealed]
  | cons layer rest ih =>
    obtain ⟨layer', rest', rfl, hlayer, hrest⟩ := List.map_eq_cons_iff.1 h.unsealed
    have hfirst : sealBetween? front rest' layer' = sealBetween? front rest layer := by
      refine sealBetween?_congr (totalSize_eq_of_map_unsealed hrest) hlayer ?_
      intro hfront hkind
      exact Option.some.inj (h.detached 0 layer rfl hkind hfront)
    rw [sealAll?_cons, sealAll?_cons, hfirst]
    cases hsealed : sealBetween? front rest layer with
    | none => rfl
    | some next =>
      -- a header is in front of the rest exactly if the first layer is one, sealed or not
      have hnext : SameToSeal next.header? rest rest' := by
        refine ⟨hrest, fun i l hl hkind hfront => h.detached (i + 1) l hl hkind ?_⟩
        rw [frontOf_cons_succ]
        cases i with
        | zero =>
          have hsome := isSome_header?_of_sealBetween? hsealed
          rw [frontOf] at hfront ⊢
          rw [hfront] at hsome
          exact Option.not_isSome_iff_eq_none.1 (by rw [← hsome]; exact Bool.false_ne_true)
        | succ i => exact hfront
      rw [Option.bind_some, Option.bind_some, ih hnext]

end Layer

namespace Packet

/-- The same packet, but for total lengths and checksums of IPv4 headers and checksums of
datagrams and segments directly behind one. -/
structure SameToSeal (p q : Packet) : Prop where
  /-- The layers differ in lengths and checksums at most. -/
  unsealed : q.layers.map Layer.unsealed = p.layers.map Layer.unsealed
  /-- A transport layer with no IPv4 header directly in front is the same, checksum and all. -/
  detached : ∀ (i : ℕ) (l : Layer), p.layers[i]? = some l → l.kind = .udp ∨ l.kind = .tcp →
    (∀ (j : ℕ) ip, i = j + 1 → p.layers[j]? ≠ some (.ipv4 ip)) → q.layers[i]? = some l

theorem SameToSeal.layers {p q : Packet} (h : p.SameToSeal q) :
    Layer.SameToSeal none p.layers q.layers := by
  refine ⟨h.unsealed, fun i l hl hkind hfront => h.detached i l hl hkind fun j ip hj hip => ?_⟩
  have hsome := Layer.isSome_frontOf_none_iff.2 ⟨j, ip, hj, hip⟩
  rw [hfront] at hsome
  cases hsome

/-- Sealing changes nothing but what it fills in. -/
theorem sameToSeal_of_sealed? {p q : Packet} (h : p.sealed? = some q) : p.SameToSeal q := by
  obtain ⟨layers, hall, hlayers⟩ := Option.map_eq_some_iff.1 h
  refine ⟨?_, (filledIn_of_sealed? h).detached⟩
  rw [← hlayers]
  exact Layer.map_unsealed_of_sealAll? hall

theorem sealed?_congr {p q : Packet} (h : p.SameToSeal q) : q.sealed? = p.sealed? := by
  rw [sealed?, sealed?, Layer.sealAll?_congr h.layers]

/-- **Sealing forgets what it fills in.**  Packets that differ in what is filled in have the
same sealed packet, or neither has one, also where the pass is made in place.  In particular
a sealed packet, which differs from the packet in nothing else, is sealed as it is. -/
theorem sealed?_forgets_stale (p q : Packet) (h : p.SameToSeal q) :
    q.sealed? = p.sealed? ∧ q.sealedInPlace? = p.sealedInPlace? ∧
    ∀ r, p.sealed? = some r → p.SameToSeal r ∧ r.sealed? = some r ∧
      r.sealedInPlace? = some r := by
  refine ⟨sealed?_congr h, ?_, fun r hr => ?_⟩
  · rw [sealedInPlace?_eq, sealedInPlace?_eq, sealed?_congr h]
  · have hsame := sameToSeal_of_sealed? hr
    have hagain : r.sealed? = some r := (sealed?_congr hsame).trans hr
    exact ⟨hsame, hagain, r.sealedInPlace?_eq.trans hagain⟩

/-- Two IPv4 headers and a segment with stale lengths and checksums, and a datagram with no
IPv4 header in front, that keeps its checksum. -/
theorem sealed?_forgets_stale_nested :
    let p : Packet := ⟨[.udp { checksum := 7 }, .ipv4 {}, .ipv4 {}, .tcp { payload := [0xAA] }]⟩
    let q : Packet := ⟨[.udp { checksum := 7 },
      .ipv4 { totalLength := 9, checksum := 0xFFFF }, .ipv4 { checksum := 1 },
      .tcp { checksum := 2, payload := [0xAA] }]⟩
    p.SameToSeal q ∧ q.sealed? = p.sealed? ∧ ∃ r, p.sealed? = some r ∧ r.sealed? = some r := by
  intro p q
  have h : p.SameToSeal q := by
    refine ⟨rfl, fun i l hl hkind hfront => ?_⟩
    match i with
    | 0 => exact hl
    | 1 | 2 =>
      obtain rfl := Option.some.inj hl
      rcases hkind with hkind | hkind <;> cases hkind
    | 3 => exact absurd rfl (hfront 2 {} rfl)
    | _ + 4 => cases hl
  obtain ⟨hsame, -, hagain⟩ := sealed?_forgets_stale p q h
  have hsome : p.sealed?.isSome := rfl
  obtain ⟨r, hr⟩ := Option.isSome_iff_exists.1 hsome
  exact ⟨h, hsame, r, hr, (hagain r hr).2.1⟩

end Packet

end RemoteMemory
