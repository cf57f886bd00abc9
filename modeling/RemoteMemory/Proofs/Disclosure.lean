/-
# What frames give away

`serialize_ualink` and `send_ack`, `SPEC_FULL.md`, sections 4.4 and 4.5: "ack frames are 30
bytes".

A frame carries its payload exactly if its operation octet is that of a write
(`Endpoint.length_frame`); of any other payload only the length shows, in the masks and the
word count (`Endpoint.frame_congr`).  Hence a batch under another octet is the same for all
fragments of the same lengths, in what it sends, answers and leaves behind
(`Endpoint.dispatch_congr`, `Endpoint.batch?_congr`).

The octet of a read is fixed, so reads give nothing away.  The octet of an acknowledgment is
a setting, and one of its 256 values is the octet of a write: under that one, and no other,
acknowledgments carry data (`Endpoint.data_only_in_writes`).
-/

import Mathlib
import RemoteMemory.Proofs.Batch

namespace RemoteMemory
namespace Endpoint

/-! ### One frame -/

/-- **A frame is as long as its headers,** and in a write as long as its payload more. -/
theorem length_frame (e : Endpoint) (address : UInt64) (payload : Octets) (opcode tag : UInt8) :
    (e.frame address payload opcode tag).length =
      30 + if opcode = 2 then payload.length else 0 := by
  have hwrite : Request.Opcode.write.value = 2 := rfl
  rw [frame, hwrite, List.length_append, List.length_append, Ethernet.Header.length_octets,
    Request.Header.length_octets]
  split_ifs <;> rfl

/-- **Only the length of a payload shows,** unless the frame is a write. -/
theorem frame_congr {opcode : UInt8} (hop : opcode ≠ 2) {payload payload' : Octets}
    (h : payload'.length = payload.length) (e : Endpoint) (address : UInt64) (tag : UInt8) :
    e.frame address payload' opcode tag = e.frame address payload opcode tag := by
  have hwrite : opcode ≠ Request.Opcode.write.value := hop
  rw [frame, frame, if_neg hwrite, if_neg hwrite, requestHeader, requestHeader, h]

/-! ### A batch of frames -/

variable {fragments fragments' : List Octets}

theorem length_congr (h : fragments'.map List.length = fragments.map List.length) :
    fragments'.length = fragments.length := by
  rw [← fragments'.length_map, h, List.length_map]

/-- What is reported of a fragment at fault is its length. -/
theorem findSome?_fragmentError?_congr
    (h : fragments'.map List.length = fragments.map List.length) :
    fragments'.findSome? fragmentError? = fragments.findSome? fragmentError? := by
  have hlength : ∀ fs : List Octets,
      fs.findSome? fragmentError? = (fs.map List.length).findSome? lengthError? := by
    intro fs
    rw [List.findSome?_map]
    rfl
  rw [hlength, h, hlength]

theorem offers_congr {opcode : UInt8} (hop : opcode ≠ 2)
    (h : fragments'.map List.length = fragments.map List.length) (e : Endpoint)
    (address : UInt64) (tag : UInt8) :
    e.offers address opcode tag fragments' = e.offers address opcode tag fragments := by
  -- the frame for a fragment is the frame for as many zeros
  have hzeros : ∀ fs : List Octets, (fs.map fun f => e.frame address f opcode tag) =
      (fs.map List.length).map fun n => e.frame address (List.replicate n 0) opcode tag := by
    intro fs
    rw [List.map_map]
    exact List.map_congr_left fun f _ => frame_congr hop (by simp) e address tag
  rw [offers, offers, hzeros, h, ← hzeros, length_congr h]

/-- **What a batch that is no write sends is the same for all fragments of the same
lengths.** -/
theorem dispatch_congr {e : Endpoint} {opcode : Request.Opcode} (hop : e.wireOpcode opcode ≠ 2)
    (h : fragments'.map List.length = fragments.map List.length) (address : UInt64)
    (tag : UInt8) :
    e.dispatch fragments' address opcode tag = e.dispatch fragments address opcode tag := by
  cases hcause : fragments.findSome? fragmentError? with
  | some cause => rw [dispatch, dispatch, findSome?_fragmentError?_congr h, hcause]
  | none =>
    have hf := findSome?_fragmentError?_eq_none_iff.1 hcause
    rw [← findSome?_fragmentError?_congr h] at hcause
    have hf' := findSome?_fragmentError?_eq_none_iff.1 hcause
    rw [e.dispatch_eq hf, e.dispatch_eq hf', offers_congr hop h, length_congr h]

/-- **A batch that is no write is the same for all fragments of the same lengths.** -/
theorem batch?_congr {e : Endpoint} {opcode : Request.Opcode} (hop : e.wireOpcode opcode ≠ 2)
    (h : fragments'.map List.length = fragments.map List.length) (address : UInt64)
    (tag : UInt8) :
    e.batch? fragments' address opcode tag = e.batch? fragments address opcode tag := by
  unfold batch?
  rw [dispatch_congr hop h, length_congr h]

theorem length_of_mem_offered_dispatch {e : Endpoint} {opcode : Request.Opcode}
    (hop : e.wireOpcode opcode ≠ 2) {address : UInt64} {tag : UInt8} {frame : Octets}
    (h : frame ∈ Call.offered (e.dispatch fragments address opcode tag).calls) :
    frame.length = 30 := by
  obtain ⟨f, -, rfl⟩ := exists_of_mem_offered_dispatch h
  rw [length_frame, if_neg hop]

/-- Batches of an operation carry no data: every frame offered has 30 octets, whether there
is an answer or not, and fragments of the same lengths make the same batch, so that the
frames on the wire are the same. -/
def Dataless (e : Endpoint) (address : UInt64) (opcode : Request.Opcode) (tag : UInt8) : Prop :=
  ∀ fragments : List Octets,
    (∀ frame ∈ Call.offered (e.dispatch fragments address opcode tag).calls,
      frame.length = 30) ∧
    (∀ s, e.batch? fragments address opcode tag = some s →
      ∀ frame ∈ Call.offered s.calls, frame.length = 30) ∧
    ∀ fragments' : List Octets, fragments'.map List.length = fragments.map List.length →
      e.dispatch fragments' address opcode tag = e.dispatch fragments address opcode tag ∧
      e.batch? fragments' address opcode tag = e.batch? fragments address opcode tag

theorem dataless_iff (e : Endpoint) (address : UInt64) (opcode : Request.Opcode) (tag : UInt8) :
    e.Dataless address opcode tag ↔ e.wireOpcode opcode ≠ 2 := by
  constructor
  · -- under the octet of a write, the frame for one octet has one octet more
    intro h hop
    have hf : ∀ f ∈ ([[0]] : List Octets), Sendable f := by simp [Sendable, Request.maxPayload]
    have hlength := (h [[0]]).1 (e.frame address [0] (e.wireOpcode opcode) tag)
      (by simp [e.offered_dispatch hf])
    rw [length_frame, if_pos hop] at hlength
    cases hlength
  · intro hop fragments
    refine ⟨fun frame h => length_of_mem_offered_dispatch hop h, fun s hs frame h => ?_,
      fun fragments' h => ⟨dispatch_congr hop h address tag, batch?_congr hop h address tag⟩⟩
    rw [offered_batch? hs] at h
    exact length_of_mem_offered_dispatch hop h

/-- **Data is in writes only,** unless acknowledgments go out under the octet of a write.
Whatever the settings, a read carries none.  An acknowledging batch carries none exactly if
the octet configured for acknowledgments is not 2, and the frame of a single
acknowledgment has 30 octets then and 31 else. -/
theorem data_only_in_writes (e : Endpoint) (address : UInt64) (tag : UInt8) :
    e.Dataless address .read tag ∧
    (e.Dataless address .ack tag ↔ e.settings.ackOpcode ≠ 2) ∧
    ∃ frame taken, (e.sendAck address tag).calls = [.send frame taken] ∧
      frame.length = if e.settings.ackOpcode = 2 then 31 else 30 := by
  have hread : e.wireOpcode .read ≠ 2 := by
    change (1 : UInt8) ≠ 2
    decide
  refine ⟨(e.dataless_iff address .read tag).2 hread, e.dataless_iff address .ack tag,
    e.frame address [0] e.settings.ackOpcode tag, e.link.offer.1, ?_, ?_⟩
  · rw [sendAck, frameFor_eq_ok (by decide)]
    rfl
  · rw [length_frame]
    split_ifs <;> rfl

/-- With the octet of a write for acknowledgments, an acknowledgment has 31 octets, and two
acknowledging batches of one octet each differ on the wire. -/
theorem ack_under_write_opcode_carries_data :
    let e : Endpoint :=
      { settings := { dstMac := "02:00:00:00:00:02", ackOpcode := 2 }
        mac := .zero
        peer := ⟨2, 0, 0, 0, 0, 2⟩
        link := {} }
    (Call.offered (e.sendAck 0x2000 0x10).calls).map List.length = [31] ∧
    ((e.batch? [[0xAA]] 0x2000 .ack 0x10).map fun s =>
      (Call.offered s.calls).map List.length) = some [31] ∧
    ((e.batch? [[0xAA]] 0x2000 .ack 0x10).map fun s => Call.offered s.calls) ≠
      (e.batch? [[0xBB]] 0x2000 .ack 0x10).map fun s => Call.offered s.calls := by
  decide +kernel

end Endpoint
end RemoteMemory
