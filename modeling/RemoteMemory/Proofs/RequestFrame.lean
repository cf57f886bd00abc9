/-
# The frame of a packet

`serialize_ualink`, `SPEC_FULL.md`, section 4.4.

A packet is written as a frame from its outermost link header and its outermost request
header, and fails if it lacks one of them or if the payload is too long.  The frame that is
filled in field by field is the two headers as each is written on its own, and the payload
of a write behind them (`Packet.writeRequest_eq_ok`); so what the readers of both headers find
in it is what the packet held.

Result and frame are a function of the two headers and the payload
(`Packet.fst_writeRequest`), and of the request header only the range counts and not what it
was last aligned to (`Request.Header.align_unaligned`).  A packet that is written
keeps its layers, with the request header aligned; aligning twice changes nothing, so the
same frame is written again.
-/

import Mathlib
import RemoteMemory.Proofs.Frame

namespace RemoteMemory

namespace Request.Header

/-- The header without what aligning fills in. -/
def unaligned (h : Header) : Header :=
  { h with
    baseAddress := 0
    requestLength := 0
    masks := 0 }

/-- Aligning reads nothing that it fills in. -/
theorem align_unaligned (h : Header) : h.unaligned.align = h.align := rfl

theorem align_align (h : Header) : h.align.align = h.align := rfl

end Request.Header

namespace Layer

/-- The outermost request header of a stack of layers. -/
def firstRequest? (layers : List Layer) : Option Request.Header :=
  layers.findSome? fun
    | .request h => some h
    | _ => none

/-- The outermost request header has no other in front of it. -/
theorem firstRequest?_eq_some_iff {layers : List Layer} {h : Request.Header} :
    firstRequest? layers = some h ↔
      ∃ before after, layers = before ++ .request h :: after ∧ ∀ l ∈ before, l.kind ≠ .request := by
  rw [firstRequest?, List.findSome?_eq_some_iff]
  constructor
  · rintro ⟨before, layer, after, rfl, hlayer, hbefore⟩
    rcases layer with _ | _ | _ | _ | h'
    case request =>
      obtain rfl := Option.some.inj hlayer
      refine ⟨before, after, rfl, fun l hl hkind => ?_⟩
      have hno := hbefore l hl
      cases l <;> cases hkind
      cases hno
    all_goals cases hlayer
  · rintro ⟨before, after, rfl, hbefore⟩
    refine ⟨before, .request h, after, rfl, rfl, fun l hl => ?_⟩
    cases l with
    | request h' => exact absurd rfl (hbefore _ hl)
    | _ => rfl

/-- There is a header to align exactly if there is one at all, and it is the outermost. -/
theorem map_fst_alignFirst? (layers : List Layer) :
    (alignFirst? layers).map Prod.fst = (firstRequest? layers).map Request.Header.align := by
  induction layers with
  | nil => rfl
  | cons layer rest ih =>
    cases layer with
    | request h => rfl
    | _ =>
      rw [alignFirst?, Option.map_map]
      · exact ih
      · simp

/-- Aligning replaces the outermost request header and no other layer. -/
theorem alignFirst?_append {before : List Layer} (hbefore : ∀ l ∈ before, l.kind ≠ .request)
    (h : Request.Header) (after : List Layer) :
    alignFirst? (before ++ .request h :: after) =
      some (h.align, before ++ .request h.align :: after) := by
  induction before with
  | nil => rfl
  | cons layer before ih =>
    have hrest := ih fun l hl => hbefore l (List.mem_cons_of_mem _ hl)
    cases layer with
    | request h' => exact absurd rfl (hbefore _ List.mem_cons_self)
    | _ =>
      rw [List.cons_append, alignFirst?, hrest]
      · rfl
      · simp

/-- Which link header is the outermost does not depend on what a request header holds. -/
theorem firstEthernet?_append (before after : List Layer) (h h' : Request.Header) :
    firstEthernet? (before ++ .request h :: after) =
      firstEthernet? (before ++ .request h' :: after) := by
  simp only [firstEthernet?, List.findSome?_append, List.findSome?_cons]

end Layer

namespace Packet

/-- The octets of a frame for a payload, from the headers that a packet has. -/
def frameOf (payload : Octets) (link : Option Ethernet.Header) (request : Option Request.Header) :
    Except Error Octets :=
  if 226 < payload.length then .error (.payloadTooLarge payload.length 226)
  else
    match link, request with
    | none, _ => .error (.missingLayer .ethernet)
    | some _, none => .error (.missingLayer .request)
    | some link, some request =>
      .ok (link.octets ++ request.octets ++ if request.opcode = 2 then payload else [])

/-- **The result is made of two headers and the payload,** and the request header is the
outermost one, aligned. -/
theorem fst_writeRequest (p : Packet) (payload : Octets) :
    (p.writeRequest payload).1 =
      frameOf payload (Layer.firstEthernet? p.layers)
        ((Layer.firstRequest? p.layers).map Request.Header.align) := by
  have hmax : Request.maxPayload = 226 := rfl
  have hwrite : Request.Opcode.write.value = 2 := rfl
  rw [← Layer.map_fst_alignFirst?]
  unfold writeRequest frameOf
  rw [hmax]
  split_ifs with hlong
  · rfl
  · cases Layer.firstEthernet? p.layers with
    | none => rfl
    | some link =>
      cases Layer.alignFirst? p.layers with
      | none => rfl
      | some aligned =>
        simp only [Request.writtenFrame_eq, hwrite]
        rfl

/-- **Without a frame the packet stays as it is.** -/
theorem snd_writeRequest_of_error {p : Packet} {payload : Octets} {cause : Error}
    (h : (p.writeRequest payload).1 = .error cause) : (p.writeRequest payload).2 = p := by
  revert h
  unfold writeRequest
  split_ifs with hlong
  · exact fun _ => rfl
  · cases Layer.firstEthernet? p.layers with
    | none => exact fun _ => rfl
    | some link =>
      cases Layer.alignFirst? p.layers with
      | none => exact fun _ => rfl
      | some aligned =>
        intro h
        cases h

theorem writeRequest_eq_error {p : Packet} {payload : Octets} {cause : Error}
    (h : frameOf payload (Layer.firstEthernet? p.layers)
      ((Layer.firstRequest? p.layers).map Request.Header.align) = .error cause) :
    p.writeRequest payload = (.error cause, p) := by
  rw [← fst_writeRequest] at h
  exact Prod.ext h (snd_writeRequest_of_error h)

/-- **With both headers there is a frame:** each header as it is written on its own, the
request header aligned, and the payload of a write. -/
theorem writeRequest_eq_ok {p : Packet} {payload : Octets} (hfits : payload.length ≤ 226)
    {link : Ethernet.Header} (hlink : Layer.firstEthernet? p.layers = some link)
    {before after : List Layer} {request : Request.Header}
    (hsplit : p.layers = before ++ .request request :: after)
    (hbefore : ∀ l ∈ before, l.kind ≠ .request) :
    p.writeRequest payload =
      (.ok (link.octets ++ request.align.octets ++
          if request.align.opcode = 2 then payload else []),
        ⟨before ++ .request request.align :: after⟩) := by
  have hmax : ¬ Request.maxPayload < payload.length := Nat.not_lt.2 hfits
  have hwrite : Request.Opcode.write.value = 2 := rfl
  unfold writeRequest
  rw [if_neg hmax, hlink, hsplit, Layer.alignFirst?_append hbefore]
  simp only [Request.writtenFrame_eq, hwrite]

/-- A frame serializes a packet with a payload: it is the two headers as they are written on
their own and the payload of a write, it reads back as these headers, and the packet `q`
that is left has the request header aligned and is else the same. -/
structure Serializes (p : Packet) (payload : Octets) (link : Ethernet.Header)
    (request : Request.Header) (frame : Octets) (q : Packet) : Prop where
  octets : frame = link.octets ++ request.align.octets ++
    if request.align.opcode = 2 then payload else []
  length : 30 ≤ frame.length ∧ frame.length ≤ 256
  readLink : Ethernet.Header.ofOctets? frame = some link
  readRequest : Request.Header.ofOctets? (frame.drop 14) = some
    { request.align with
      address := request.align.baseAddress
      payloadLength := 0 }
  layers : ∃ before after, p.layers = before ++ .request request :: after ∧
    (∀ l ∈ before, l.kind ≠ .request) ∧ q.layers = before ++ .request request.align :: after
  /-- Aligning changes three fields. -/
  aligned : request =
    { request.align with
      baseAddress := request.baseAddress
      requestLength := request.requestLength
      masks := request.masks }
  again : q.writeRequest payload = (.ok frame, q)

theorem exists_serializes {p : Packet} {payload : Octets} (hfits : payload.length ≤ 226)
    {link : Ethernet.Header} (hlink : Layer.firstEthernet? p.layers = some link)
    {request : Request.Header} (hrequest : Layer.firstRequest? p.layers = some request) :
    ∃ frame q, p.writeRequest payload = (.ok frame, q) ∧
      p.Serializes payload link request frame q := by
  obtain ⟨before, after, hsplit, hbefore⟩ := Layer.firstRequest?_eq_some_iff.1 hrequest
  refine ⟨_, _, writeRequest_eq_ok hfits hlink hsplit hbefore, rfl, ?_, ?_, ?_,
    ⟨before, after, hsplit, hbefore, rfl⟩, rfl, ?_⟩
  · simp only [List.length_append, Ethernet.Header.length_octets, Request.Header.length_octets,
      Ethernet.Header.size, Request.Header.size]
    split_ifs
    · omega
    · simp
  · rw [List.append_assoc]
    exact Ethernet.Header.ofOctets?_octets_append ..
  · have hsize : link.octets.length = 14 := Ethernet.Header.length_octets link
    rw [List.append_assoc, List.drop_left' hsize]
    exact Request.Header.ofOctets?_octets_append ..
  · have hlayers : (⟨before ++ .request request.align :: after⟩ : Packet).layers =
        before ++ .request request.align :: after := rfl
    rw [hsplit, Layer.firstEthernet?_append before after request request.align] at hlink
    have hagain := writeRequest_eq_ok hfits hlink hlayers hbefore
    rwa [Request.Header.align_align] at hagain

/-- **Writing a request agrees with the headers on their own.**  It fails exactly for a payload
of more than 226 octets, else for a missing link header, else for a missing request header,
and then leaves the packet as it is.  Otherwise the frame serializes the outermost header of
each kind.  The result is the same for every packet with the same two headers, whatever its
other layers are and whatever its request header was aligned to. -/
theorem writeRequest_agrees_with_headers (p : Packet) (payload : Octets) :
    (226 < payload.length →
      p.writeRequest payload = (.error (.payloadTooLarge payload.length 226), p)) ∧
    (payload.length ≤ 226 → Layer.firstEthernet? p.layers = none →
      p.writeRequest payload = (.error (.missingLayer .ethernet), p)) ∧
    (payload.length ≤ 226 → ∀ link, Layer.firstEthernet? p.layers = some link →
      Layer.firstRequest? p.layers = none →
      p.writeRequest payload = (.error (.missingLayer .request), p)) ∧
    (payload.length ≤ 226 → ∀ link, Layer.firstEthernet? p.layers = some link →
      ∀ request, Layer.firstRequest? p.layers = some request →
      ∃ frame q, p.writeRequest payload = (.ok frame, q) ∧
        p.Serializes payload link request frame q) ∧
    ∀ p' : Packet, Layer.firstEthernet? p'.layers = Layer.firstEthernet? p.layers →
      (Layer.firstRequest? p'.layers).map Request.Header.unaligned =
        (Layer.firstRequest? p.layers).map Request.Header.unaligned →
      (p'.writeRequest payload).1 = (p.writeRequest payload).1 := by
  refine ⟨fun hlong => ?_, fun hfits hlink => ?_, fun hfits link hlink hrequest => ?_,
    fun hfits link hlink request hrequest => exists_serializes hfits hlink hrequest,
    fun p' hlink hrequest => ?_⟩
  · exact writeRequest_eq_error (if_pos hlong)
  · refine writeRequest_eq_error ((if_neg (Nat.not_lt.2 hfits)).trans ?_)
    rw [hlink]
  · refine writeRequest_eq_error ((if_neg (Nat.not_lt.2 hfits)).trans ?_)
    rw [hlink, hrequest]
    rfl
  · have halign := congrArg (Option.map Request.Header.align) hrequest
    simp only [Option.map_map, Function.comp_def, Request.Header.align_unaligned] at halign
    rw [fst_writeRequest, fst_writeRequest, hlink]
    exact congrArg _ halign

/-- A write of two octets across a word boundary, with a datagram in front, a request header
that was aligned to something else, and a second one behind it. -/
theorem writeRequest_agrees_with_headers_stale :
    let request : Request.Header :=
      { opcode := 2
        tag := 0x10
        requestLength := 9
        masks := 0xFFFF
        baseAddress := 0x8000
        address := 0x2007
        payloadLength := 2 }
    let p : Packet := ⟨[.udp {}, .ethernet {}, .request request, .request {}]⟩
    let fresh : Packet := ⟨[.request request.unaligned, .ethernet {}]⟩
    ([0xAA, 0xBB] : Octets).length ≤ 226 ∧ Layer.firstEthernet? p.layers = some {} ∧
      Layer.firstRequest? p.layers = some request ∧
      (∃ frame q, p.writeRequest [0xAA, 0xBB] = (.ok frame, q) ∧
        p.Serializes [0xAA, 0xBB] {} request frame q) ∧
      (fresh.writeRequest [0xAA, 0xBB]).1 = (p.writeRequest [0xAA, 0xBB]).1 := by
  intro request p fresh
  obtain ⟨-, -, -, hframe, hsame⟩ := writeRequest_agrees_with_headers p [0xAA, 0xBB]
  exact ⟨by decide, rfl, rfl, hframe (by decide) {} rfl request rfl, hsame fresh rfl rfl⟩

end Packet

end RemoteMemory
