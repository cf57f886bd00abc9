/-
# What a frame says, and who takes it for a reply

The frame layout of `SPEC_FULL.md`, section 6, and the frame filter of section 4.5.

The frame an endpoint builds for a payload (`Endpoint.frame`) is a link header from
itself to its peer, an aligned request header, and the payload if the operation is a
write.  Read back, it says just that (`conveys_frame`): both headers come out as they
went in, the request header less the range that is not on the wire
(`Header.received`), and the bytes it enables are those of the payload at the address.

The filter for replies reads the two headers and nothing else, so a frame cut behind
them is taken for a reply exactly if the whole frame is (`accepts_take`).  A frame that
an endpoint built is taken exactly by its peer, when that peer waits for the operation
and the tag it carries (`accepts_frame_iff`).
-/

import Mathlib
import RemoteMemory.Endpoint.Basic
import RemoteMemory.Proofs.EnabledBytes

namespace RemoteMemory

/-- **A reader of the first `size` octets does not see the rest:** what it reads stays
when octets are added behind or when those behind `size` are cut. -/
theorem Octets.read_take {α : Type} {read : Octets → Option α} {size : ℕ}
    (happend : ∀ {bs rest a}, read bs = some a → read (bs ++ rest) = some a)
    (hcut : ∀ {bs a}, read bs = some a → read (bs.take size) = some a)
    {n : ℕ} (hn : size ≤ n) (bs : Octets) : read (bs.take n) = read bs := by
  cases hr : read bs with
  | some a =>
    have hfront : (bs.take n).take size = bs.take size := by
      rw [List.take_take, Nat.min_eq_left hn]
    rw [← List.take_append_drop size (bs.take n), hfront]
    exact happend (hcut hr)
  | none =>
    cases ht : read (bs.take n) with
    | none => rfl
    | some a =>
      have h : read (bs.take n ++ bs.drop n) = some a := happend ht
      rw [List.take_append_drop, hr] at h
      cases h

namespace Ethernet.Header

/-- The header is read off the first 14 octets. -/
theorem ofOctets?_take {n : ℕ} (hn : size ≤ n) (bs : Octets) :
    ofOctets? (bs.take n) = ofOctets? bs := by
  refine Octets.read_take (fun {bs rest h} hr => ?_) (fun {bs h} hr => ?_) hn bs
  · rw [octets_of_ofOctets? hr, List.append_assoc]
    exact ofOctets?_octets_append h _
  · rw [octets_of_ofOctets? hr, ← length_octets h, List.take_left, ← List.append_nil h.octets]
    exact ofOctets?_octets_append h []

end Ethernet.Header

namespace Request.Header

/-- What a receiver knows of a header: the range it was made for is not on the wire. -/
def received (h : Header) : Header :=
  { h with
    address := h.baseAddress
    payloadLength := 0 }

@[simp] theorem enables_received (h : Header) (n : ℕ) : h.received.Enables n ↔ h.Enables n :=
  Iff.rfl

/-- Both masks read back from the two octets they are written as. -/
theorem word16_masks (h : Header) : Octets.word16 h.lastMask h.firstMask = h.masks := by
  apply UInt16.toNat_inj.1
  have hm := h.masks.toNat_lt
  have hf : h.firstMask.toNat = h.masks.toNat % 256 := UInt16.toNat_toUInt8 _
  have hl : h.lastMask.toNat = h.masks.toNat / 256 % 256 := by
    rw [lastMask, UInt16.toNat_toUInt8, UInt16.toNat_shiftRight, Nat.shiftRight_eq_div_pow]
    rfl
  rw [Octets.toNat_word16, hf, hl]
  omega

/-- **A written header reads back** as far as it is on the wire, whatever follows it. -/
theorem ofOctets?_octets_append (h : Header) (rest : Octets) :
    ofOctets? (h.octets ++ rest) = some h.received := by
  obtain ⟨a, b, c, d, e, f, g, i, hw, hr⟩ := Octets.exists_word64 h.baseAddress
  simp [octets, hw, ofOctets?, hr, word16_masks, received]

/-- The header is read off the first 16 octets. -/
theorem ofOctets?_take {n : ℕ} (hn : size ≤ n) (bs : Octets) :
    ofOctets? (bs.take n) = ofOctets? bs := by
  refine Octets.read_take (fun {bs rest h} hr => ?_) (fun {bs h} hr => ?_) hn bs
  · unfold ofOctets? at hr
    split at hr
    · simpa [ofOctets?] using hr
    · cases hr
  · unfold ofOctets? at hr
    split at hr
    · simpa [ofOctets?, size] using hr
    · cases hr

end Request.Header

namespace Endpoint

/-- The link header of every frame an endpoint builds. -/
def linkHeader (e : Endpoint) : Ethernet.Header :=
  .between e.mac e.peer e.settings.ethertype

/-- The request header of the frame for a payload. -/
def requestHeader (address : UInt64) (payload : Octets) (opcode tag : UInt8) : Request.Header :=
  (({} : Request.Header).ask ⟨address, .ofNat payload.length⟩ opcode tag).align

/-- The frame for a payload that one frame carries. -/
def frame (e : Endpoint) (address : UInt64) (payload : Octets) (opcode tag : UInt8) : Octets :=
  e.linkHeader.octets ++ (requestHeader address payload opcode tag).octets ++
    if opcode = Request.Opcode.write.value then payload else []

/-- A frame depends on the addresses and the settings, not on the link or the phase. -/
@[simp] theorem frame_mk (e : Endpoint) (link : Link) (phase : Phase) (address : UInt64)
    (payload : Octets) (opcode tag : UInt8) :
    ({ e with link, phase } : Endpoint).frame address payload opcode tag =
      e.frame address payload opcode tag := rfl

/-- **A frame is built for every payload that fits.** -/
theorem frameFor_eq_ok {payload : Octets} (h : payload.length ≤ Request.maxPayload) (e : Endpoint)
    (address : UInt64) (opcode tag : UInt8) :
    e.frameFor address payload opcode tag = .ok (e.frame address payload opcode tag) := by
  simp only [frameFor, Packet.requestFrame, Packet.writeRequest, if_neg (Nat.not_lt.2 h)]
  exact congrArg Except.ok (Request.writtenFrame_eq ..)

theorem ofOctets?_frame (e : Endpoint) (address : UInt64) (payload : Octets) (opcode tag : UInt8) :
    Ethernet.Header.ofOctets? (e.frame address payload opcode tag) = some e.linkHeader := by
  rw [frame, List.append_assoc]
  exact Ethernet.Header.ofOctets?_octets_append _ _

theorem ofOctets?_drop_frame (e : Endpoint) (address : UInt64) (payload : Octets)
    (opcode tag : UInt8) :
    Request.Header.ofOctets? ((e.frame address payload opcode tag).drop Ethernet.Header.size) =
      some (requestHeader address payload opcode tag).received := by
  rw [frame, List.append_assoc, ← Ethernet.Header.length_octets e.linkHeader, List.drop_left]
  exact Request.Header.ofOctets?_octets_append _ _

theorem drop_frame (e : Endpoint) (address : UInt64) (payload : Octets) (opcode tag : UInt8) :
    (e.frame address payload opcode tag).drop Request.frameHeaderSize =
      if opcode = Request.Opcode.write.value then payload else [] := by
  have hlen : (e.linkHeader.octets ++ (requestHeader address payload opcode tag).octets).length =
      Request.frameHeaderSize := by
    rw [List.length_append, Ethernet.Header.length_octets, Request.Header.length_octets]
    rfl
  rw [frame, ← hlen, List.drop_left]

/-- A frame of an endpoint conveys a fragment: it goes to the peer, asks with an
operation and a tag for the bytes of the fragment at the address, and carries the
fragment itself if the operation is a write, and nothing otherwise. -/
def Conveys (e : Endpoint) (address : UInt64) (opcode tag : UInt8) (fragment frame : Octets) :
    Prop :=
  Ethernet.Header.ofOctets? frame =
      some { dst := e.peer, src := e.mac, ethertype := e.settings.ethertype } ∧
    (∃ request, Request.Header.ofOctets? (frame.drop 14) = some request ∧
      request.versionType = 0x10 ∧ request.opcode = opcode ∧ request.tag = tag ∧
      ∀ n, request.Enables n ↔ address.toNat ≤ n ∧ n < address.toNat + fragment.length) ∧
    frame.drop 30 = if opcode = 2 then fragment else []

/-- **A built frame conveys its payload.** -/
theorem conveys_frame {payload : Octets} (h : payload.length ≤ Request.maxPayload) (e : Endpoint)
    (address : UInt64) (opcode tag : UInt8) :
    e.Conveys address opcode tag payload (e.frame address payload opcode tag) := by
  refine ⟨e.ofOctets?_frame .., ⟨_, e.ofOctets?_drop_frame .., rfl, rfl, rfl, fun n => ?_⟩,
    e.drop_frame ..⟩
  have hmax : payload.length ≤ 226 := h
  have hlen : (UInt64.ofNat payload.length).toNat = payload.length :=
    UInt64.toNat_ofNat_of_lt' (by change _ < 2 ^ 64; omega)
  let asked := ({} : Request.Header).ask ⟨address, .ofNat payload.length⟩ opcode tag
  have ho := asked.range.toNat_offset
  have hspan : asked.range.offset.toNat + asked.payloadLength.toNat ≤ 2048 := by
    rw [show asked.payloadLength.toNat = payload.length from hlen]
    omega
  rw [Request.Header.enables_received]
  rw [← hlen]
  exact Request.Header.enables_align_iff hspan n

/-! ### The filter -/

/-- What the filter looks for in a frame: both headers, the endpoint's type, its peer as
the source, and the operation and tag waited for. -/
def Expects (e : Endpoint) (opcode tag : UInt8) (frame : Octets) : Prop :=
  ∃ link request, Ethernet.Header.ofOctets? frame = some link ∧
    Request.Header.ofOctets? (frame.drop Ethernet.Header.size) = some request ∧
    link.src = e.peer ∧ link.ethertype = e.settings.ethertype ∧
    request.opcode = opcode ∧ request.tag = tag

theorem accepts_iff_expects {e : Endpoint} (hv : e.settings.validateFrames = true)
    (opcode tag : UInt8) (frame : Octets) :
    e.accepts opcode tag frame = true ↔ e.Expects opcode tag frame := by
  unfold accepts Expects
  rw [if_pos hv]
  constructor
  · intro h
    split at h
    · rename_i link request hl hr
      simp only [Bool.and_eq_true, beq_iff_eq] at h
      exact ⟨link, request, hl, hr, h.1.1.2, h.1.1.1, h.1.2, h.2⟩
    · cases h
  · rintro ⟨link, request, hl, hr, hsrc, htype, hop, htag⟩
    rw [hl, hr]
    simp [hsrc, htype, hop, htag]

/-- **A frame cut behind its headers is taken for what it was.** -/
theorem accepts_take {n : ℕ} (hn : Request.frameHeaderSize ≤ n) (e : Endpoint) (opcode tag : UInt8)
    (frame : Octets) : e.accepts opcode tag (frame.take n) = e.accepts opcode tag frame := by
  have hn' : 30 ≤ n := hn
  have hlink : Ethernet.Header.size ≤ n := by change 14 ≤ n; omega
  have hrequest : Request.Header.size ≤ n - Ethernet.Header.size := by change 16 ≤ n - 14; omega
  unfold accepts
  rw [Ethernet.Header.ofOctets?_take hlink, List.drop_take,
    Request.Header.ofOctets?_take hrequest]

/-- **A built frame is a reply for its addressee, and for nobody else:** the filter
takes it exactly if it comes from the peer, the types agree, and it carries the
operation and the tag waited for. -/
theorem accepts_frame_iff {e : Endpoint} (hv : e.settings.validateFrames = true) (sender : Endpoint)
    (address : UInt64) (payload : Octets) (opcode tag opcode' tag' : UInt8) :
    e.accepts opcode tag (sender.frame address payload opcode' tag') = true ↔
      sender.mac = e.peer ∧ sender.settings.ethertype = e.settings.ethertype ∧
        opcode' = opcode ∧ tag' = tag := by
  rw [accepts_iff_expects hv, Expects, ofOctets?_frame, ofOctets?_drop_frame]
  constructor
  · rintro ⟨link, request, hl, hr, h⟩
    obtain rfl := Option.some.inj hl
    obtain rfl := Option.some.inj hr
    exact h
  · intro h
    exact ⟨_, _, rfl, rfl, h⟩

/-- A frame built by the peer is a reply, also where frames are not looked at. -/
theorem accepts_frame {e sender : Endpoint} (hmac : sender.mac = e.peer)
    (htype : sender.settings.ethertype = e.settings.ethertype) (address : UInt64)
    (payload : Octets) (opcode tag : UInt8) :
    e.accepts opcode tag (sender.frame address payload opcode tag) = true := by
  by_cases hv : e.settings.validateFrames = true
  · exact (accepts_frame_iff hv ..).2 ⟨hmac, htype, rfl, rfl⟩
  · rw [accepts, if_neg hv]

end Endpoint

end RemoteMemory
