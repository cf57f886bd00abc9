/-
# Which frames are recognized

The frame filter of `SPEC_FULL.md`, section 4.5, and the frame layout of section 6.

What the filter looks at are seventeen octets, if there are thirty: the source address, the
type, the operation octet and the tag (`Endpoint.accepts_iff_octets`).

| octets | what the filter wants there |
| ---: | --- |
| 6 … 11 | the peer's address |
| 12, 13 | the endpoint's type, most significant octet first |
| 15 | the operation waited for |
| 16 | the tag waited for |

Address and payload of a request lie behind them and are never read for one of the four, and a
frame that is too short is refused like any other that does not match.  So the filter and the
frames that endpoints build agree: of all frames built it takes those of the peer that carry
what is waited for (`Endpoint.recognition_agrees`).
-/

import Mathlib
import RemoteMemory.Proofs.Frame

namespace RemoteMemory

/-- A source address and a type are read from a string if they stand behind the first six of
its at least 14 octets. -/
theorem Ethernet.Header.exists_ofOctets?_iff {bs : Octets} {src : Mac} {ethertype : UInt16} :
    (∃ h, ofOctets? bs = some h ∧ h.src = src ∧ h.ethertype = ethertype) ↔
      14 ≤ bs.length ∧ (bs.drop 6).take 6 = src.octets ∧
        (bs.drop 12).take 2 = Octets.ofWord16 ethertype := by
  have hslices : ∀ {h : Header}, ofOctets? bs = some h →
      (bs.drop 6).take 6 = h.src.octets ∧ (bs.drop 12).take 2 = Octets.ofWord16 h.ethertype := by
    intro h hr
    obtain ⟨a, b, hw, -⟩ := Octets.exists_word16 h.ethertype
    rw [octets_of_ofOctets? hr]
    simp [octets, Mac.octets, hw]
  constructor
  · rintro ⟨h, hr, rfl, rfl⟩
    exact ⟨isSome_ofOctets?_iff.1 (Option.isSome_of_eq_some hr), hslices hr⟩
  · rintro ⟨hlong, hsrc, htype⟩
    obtain ⟨h, hr⟩ := Option.isSome_iff_exists.1 (isSome_ofOctets?_iff.2 hlong)
    obtain ⟨hsrc', htype'⟩ := hslices hr
    exact ⟨h, hr, Mac.octets_injective (hsrc'.symm.trans hsrc),
      Octets.ofWord16_injective (htype'.symm.trans htype)⟩

/-- An operation octet and a tag are read from a string if they stand behind the first of its
at least 16 octets. -/
theorem Request.Header.exists_ofOctets?_iff {bs : Octets} {opcode tag : UInt8} :
    (∃ h, ofOctets? bs = some h ∧ h.opcode = opcode ∧ h.tag = tag) ↔
      16 ≤ bs.length ∧ bs[1]? = some opcode ∧ bs[2]? = some tag := by
  have hoctets : ∀ {h : Header}, ofOctets? bs = some h →
      bs[1]? = some h.opcode ∧ bs[2]? = some h.tag := by
    intro h hr
    unfold ofOctets? at hr
    split at hr
    · obtain rfl := Option.some.inj hr
      exact ⟨rfl, rfl⟩
    · cases hr
  constructor
  · rintro ⟨h, hr, rfl, rfl⟩
    exact ⟨isSome_ofOctets?_iff.1 (Option.isSome_of_eq_some hr), hoctets hr⟩
  · rintro ⟨hlong, hopcode, htag⟩
    obtain ⟨h, hr⟩ := Option.isSome_iff_exists.1 (isSome_ofOctets?_iff.2 hlong)
    obtain ⟨hopcode', htag'⟩ := hoctets hr
    exact ⟨h, hr, Option.some.inj (hopcode'.symm.trans hopcode),
      Option.some.inj (htag'.symm.trans htag)⟩

namespace Endpoint

/-- **The filter on octets.** -/
theorem accepts_iff_octets {e : Endpoint} (hv : e.settings.validateFrames = true)
    (opcode tag : UInt8) (frame : Octets) :
    e.accepts opcode tag frame = true ↔
      30 ≤ frame.length ∧ (frame.drop 6).take 6 = e.peer.octets ∧
        (frame.drop 12).take 2 = Octets.ofWord16 e.settings.ethertype ∧
        frame[15]? = some opcode ∧ frame[16]? = some tag := by
  have hlink := @Ethernet.Header.exists_ofOctets?_iff frame e.peer e.settings.ethertype
  have hrequest :=
    @Request.Header.exists_ofOctets?_iff (frame.drop Ethernet.Header.size) opcode tag
  rw [List.length_drop, List.getElem?_drop, List.getElem?_drop] at hrequest
  rw [accepts_iff_expects hv]
  constructor
  · rintro ⟨link, request, hl, hr, hsrc, htype, hop, htag⟩
    obtain ⟨-, hmac, hword⟩ := hlink.1 ⟨link, hl, hsrc, htype⟩
    obtain ⟨hlong, hopcode, htag⟩ := hrequest.1 ⟨request, hr, hop, htag⟩
    change 16 ≤ frame.length - 14 at hlong
    exact ⟨by omega, hmac, hword, hopcode, htag⟩
  · rintro ⟨hlong, hmac, hword, hopcode, htag⟩
    obtain ⟨link, hl, hsrc, htype⟩ := hlink.2 ⟨by omega, hmac, hword⟩
    have hrest : 16 ≤ frame.length - Ethernet.Header.size := by
      change 16 ≤ frame.length - 14
      omega
    obtain ⟨request, hr, hop, htag⟩ := hrequest.2 ⟨hrest, hopcode, htag⟩
    exact ⟨link, request, hl, hr, hsrc, htype, hop, htag⟩

/-- Where frames are not looked at, every frame is taken for a reply. -/
theorem accepts_of_not_validating {e : Endpoint} (hv : e.settings.validateFrames = false)
    (opcode tag : UInt8) (frame : Octets) : e.accepts opcode tag frame = true := by
  rw [accepts, if_neg (by simp [hv])]

/-- One endpoint is the peer of another exactly if their settings name one address for the two
of them. -/
theorem mac_eq_peer_iff_of_create {link link' : Link} {settings settings' : Settings}
    {e sender : Endpoint} (he : create link settings = .ok e)
    (hs : create link' settings' = .ok sender) :
    sender.mac = e.peer ↔
      Ethernet.Mac.parse settings'.srcMac = Ethernet.Mac.parse settings.dstMac := by
  obtain ⟨-, rfl, -⟩ := create_eq_ok_iff.1 he
  obtain ⟨-, rfl, -⟩ := create_eq_ok_iff.1 hs
  rw [sender.mac_named, e.peer_named, Except.ok.injEq]

/-- **Senders and filters agree.**  An endpoint that looks at its frames takes a frame that
another builds for 1 to 226 octets, at any address, exactly if that one is its peer, of the
same type, and operation octet and tag are those waited for; and of all octet strings it takes
those of at least 30 octets that hold the four at their places, and no shorter one.  An
endpoint that does not look takes every string, the empty one too.  New endpoints are peers if
their settings name the same address, in whatever spelling. -/
theorem recognition_agrees (e sender : Endpoint) :
    (e.settings.validateFrames = true →
      (∀ address payload opcode' tag', 1 ≤ payload.length → payload.length ≤ 226 →
        ∃ frame, sender.frameFor address payload opcode' tag' = .ok frame ∧
          ∀ opcode tag, e.accepts opcode tag frame = true ↔
            sender.mac = e.peer ∧ sender.settings.ethertype = e.settings.ethertype ∧
              opcode' = opcode ∧ tag' = tag) ∧
      ∀ opcode tag frame, e.accepts opcode tag frame = true ↔
        30 ≤ frame.length ∧ (frame.drop 6).take 6 = e.peer.octets ∧
          (frame.drop 12).take 2 = Octets.ofWord16 e.settings.ethertype ∧
          frame[15]? = some opcode ∧ frame[16]? = some tag) ∧
    (e.settings.validateFrames = false →
      ∀ opcode tag frame, e.accepts opcode tag frame = true) ∧
    ∀ link link' settings settings', create link settings = .ok e →
      create link' settings' = .ok sender →
      (sender.mac = e.peer ↔
        Ethernet.Mac.parse settings'.srcMac = Ethernet.Mac.parse settings.dstMac) := by
  refine ⟨fun hv => ⟨?_, accepts_iff_octets hv⟩, accepts_of_not_validating, ?_⟩
  · intro address payload opcode' tag' _ hmax
    exact ⟨_, frameFor_eq_ok hmax sender address opcode' tag',
      fun opcode tag => accepts_frame_iff hv sender address payload opcode tag opcode' tag'⟩
  · intro link link' settings settings' he hs
    exact mac_eq_peer_iff_of_create he hs

/-- A frame from a peer whose address is spelt in another way, at an address whose octets are
those of an acknowledgment, and the empty frame where frames are not looked at. -/
theorem recognition_agrees_other_spelling :
    let e : Endpoint :=
      { settings := { dstMac := "02:00:00:00:00:02" }
        mac := .zero
        peer := ⟨2, 0, 0, 0, 0, 2⟩
        link := {} }
    let sender : Endpoint :=
      { settings := { srcMac := "2:0:0:0:0:02" }
        mac := ⟨2, 0, 0, 0, 0, 2⟩
        peer := .zero
        link := {} }
    let careless : Endpoint := { e with settings := { e.settings with validateFrames := false } }
    create {} e.settings = .ok e ∧ create {} sender.settings = .ok sender ∧
      sender.mac = e.peer ∧
      (∃ frame, sender.frameFor 0x0310031003100310 [0x10] 2 0x10 = .ok frame ∧
        e.accepts 2 0x10 frame = true ∧ ¬ e.accepts 3 0x10 frame = true) ∧
      careless.settings.validateFrames = false ∧ careless.accepts 3 0x10 [] = true := by
  intro e sender careless
  have he : create {} e.settings = .ok e := create_eq_ok_iff.2 ⟨rfl, rfl, rfl⟩
  have hs : create {} sender.settings = .ok sender := create_eq_ok_iff.2 ⟨rfl, rfl, rfl⟩
  obtain ⟨hvalidate, -, hspelling⟩ := recognition_agrees e sender
  obtain ⟨-, hcareless, -⟩ := recognition_agrees careless sender
  obtain ⟨hbuilt, -⟩ := hvalidate rfl
  have hpeer : sender.mac = e.peer :=
    (hspelling {} {} e.settings sender.settings he hs).2 (by decide +kernel)
  obtain ⟨frame, hframe, htaken⟩ := hbuilt 0x0310031003100310 [0x10] 2 0x10 (by decide) (by decide)
  refine ⟨he, hs, hpeer, ⟨frame, hframe, (htaken 2 0x10).2 ⟨hpeer, rfl, rfl, rfl⟩, ?_⟩, rfl,
    hcareless rfl 3 0x10 []⟩
  intro h
  obtain ⟨-, -, hopcode, -⟩ := (htaken 3 0x10).1 h
  exact absurd hopcode (by decide)

end Endpoint

end RemoteMemory
