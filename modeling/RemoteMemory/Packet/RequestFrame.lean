/-
# Frames that carry a memory request

`serialize_ualink`, `SPEC_FULL.md`, section 4.4, and the frame layout in section 6.

A frame is a link header, a request header and, in a write, the data written:

| offset | size | part |
| ---: | ---: | --- |
| 0 | 14 | link header |
| 14 | 16 | request header |
| 30 | … | payload of a write, at most 226 octets |

The outermost link header and the outermost request header of a packet are used;
other layers do not matter.  The request header is aligned first, and the packet
keeps it that way.

The fields of both headers are written at their offsets in the frame
(`Request.frameFields`).  That gives the octets of the headers themselves
(`Request.writtenFrame_eq`).
-/

import RemoteMemory.Packet.Basic
import RemoteMemory.Request.Opcode

namespace RemoteMemory
namespace Request

/-- Octets in front of the payload of a frame. -/
def frameHeaderSize : Nat := Ethernet.Header.size + Header.size

/-- The most octets one frame carries. -/
def maxPayload : Nat := 226

/-- The most octets of a frame. -/
def maxFrame : Nat := frameHeaderSize + maxPayload

/-- The fields of both headers: the offset of each in a frame, and its octets.  The last
two octets in front of the payload are reserved and belong to no field. -/
def frameFields (link : Ethernet.Header) (request : Header) : List (Nat × Octets) :=
  [(0, link.dst.octets), (6, link.src.octets), (12, Octets.ofWord16 link.ethertype),
    (14, [request.versionType]), (15, [request.opcode]), (16, [request.tag]),
    (17, [request.requestLength]), (18, [request.firstMask]), (19, [request.lastMask]),
    (20, Octets.ofWord64 request.baseAddress)]

/-- The frame of two headers with data behind them: zeros, with the fields and the data
written over them. -/
def writtenFrame (link : Ethernet.Header) (request : Header) (data : Octets) : Octets :=
  let zeros : Octets := List.replicate (frameHeaderSize + data.length) 0
  let headers : Octets := (frameFields link request).foldl
    (fun buffer field => buffer.overwrite field.1 field.2) zeros
  headers.overwrite frameHeaderSize data

/-- **A frame is its headers as each is written on its own,** and the data. -/
theorem writtenFrame_eq (link : Ethernet.Header) (request : Header) (data : Octets) :
    writtenFrame link request data = link.octets ++ request.octets ++ data := by
  have hadjacent : Octets.Adjacent ([] : Octets).length (frameFields link request) := by
    simp [frameFields, Octets.Adjacent]
  have hzeros : (List.replicate (frameHeaderSize + data.length) 0 : Octets) =
      [] ++ List.replicate 28 0 ++ ([0, 0] ++ List.replicate data.length 0) := by
    rw [← List.replicate_append_replicate]
    rfl
  have hheaders : (frameFields link request).flatMap Prod.snd ++ [0, 0] =
      link.octets ++ request.octets := by
    simp [frameFields, Ethernet.Header.octets, Header.octets]
  have hsize : (link.octets ++ request.octets).length = frameHeaderSize := by
    simp [frameHeaderSize]
  have hlength : (List.replicate data.length 0 : Octets).length = data.length := by simp
  have hdata := Octets.overwrite_append (link.octets ++ request.octets) hlength []
  rw [List.append_nil, List.append_nil, hsize] at hdata
  rw [writtenFrame, hzeros, Octets.foldl_overwrite hadjacent (by simp [frameFields]),
    List.nil_append, ← List.append_assoc, hheaders, hdata]

end Request

namespace Layer

/-- The outermost link header of a stack of layers. -/
def firstEthernet? (layers : List Layer) : Option Ethernet.Header :=
  layers.findSome? fun
    | .ethernet h => some h
    | _ => none

/-- The outermost request header of a stack, aligned, and the stack with it. -/
def alignFirst? : List Layer → Option (Request.Header × List Layer)
  | [] => none
  | .request h :: rest => some (h.align, .request h.align :: rest)
  | layer :: rest => (alignFirst? rest).map fun (h, rest) => (h, layer :: rest)

end Layer

namespace Packet

/-- Write the frame of a request with a payload (`serialize_ualink`); the result, and the
packet afterwards, with its request header aligned if there is a frame.  The payload goes
into the frame of a write only, but its length is checked in any case, and before the layers
are looked for. -/
def writeRequest (p : Packet) (payload : Octets) : Except Error Octets × Packet :=
  if Request.maxPayload < payload.length then
    (.error (.payloadTooLarge payload.length Request.maxPayload), p)
  else
    match Layer.firstEthernet? p.layers with
    | none => (.error (.missingLayer .ethernet), p)
    | some link =>
      match Layer.alignFirst? p.layers with
      | none => (.error (.missingLayer .request), p)
      | some (request, layers) =>
        let data := if request.opcode = Request.Opcode.write.value then payload else []
        (.ok (Request.writtenFrame link request data), ⟨layers⟩)

/-- The frame of a request with a payload, and the packet with its request header
aligned. -/
def requestFrame (p : Packet) (payload : Octets) : Except Error (Octets × Packet) :=
  let (result, q) := p.writeRequest payload
  result.map fun frame => (frame, q)

end Packet

end RemoteMemory
