/-
# Batches

`send_batch_wait_ack`, `write`, `read` and `send_ack`, `SPEC_FULL.md`, section 4.5.

A batch is a list of fragments for one address.  Every fragment goes out in a
frame of its own, in order (`dispatch`); then a write waits for one acknowledgment, a
read for one reply per fragment, and an acknowledgment for nothing (`awaitAnswer?`).  A
frame that the link refuses is counted and not offered again.

A batch with an empty fragment or one too long for a frame is refused before
anything is sent; the first such fragment is the one reported.

The replies to a read are gathered in a buffer.  If that would be too long, the wait
for them has no answer and neither has the batch, though its frames went out:

| operation | no answer for |
| --- | --- |
| `batch?` of a read | more replies than fit into a buffer |
| `write?` | none |
| `read?` | fragments or replies that do not fit into buffers |

A read is a batch of equal fragments, which are made before anything else
(`read?_eq_batch?`).
-/

import RemoteMemory.Endpoint.Watch

namespace RemoteMemory
namespace Endpoint

/-- Why a fragment of that length cannot be sent. -/
def lengthError? (length : Nat) : Option Error :=
  if length = 0 then some .emptyPayload
  else if Request.maxPayload < length then some (.payloadTooLarge length Request.maxPayload)
  else none

/-- Why a fragment cannot be sent (`check_fragment`). -/
def fragmentError? (fragment : Octets) : Option Error := lengthError? fragment.length

/-- How many frames of a batch the link took and refused. -/
structure Dispatch where
  sent : Nat := 0
  refused : Nat := 0

/-- One more frame, taken or refused. -/
def Dispatch.add (d : Dispatch) (taken : Bool) : Dispatch :=
  if taken then { d with sent := d.sent + 1 } else { d with refused := d.refused + 1 }

/-- Offer one frame per fragment to the link.  A fragment that no frame can be
built for would end the batch there. -/
def transmit (address : UInt64) (opcode tag : UInt8) :
    Endpoint → List Octets → Step (Except Error Dispatch)
  | e, [] => { result := .ok {}, endpoint := e, calls := [] }
  | e, fragment :: rest =>
    match e.frameFor address fragment opcode tag with
    | .error cause => { result := .error cause, endpoint := e, calls := [] }
    | .ok frame =>
      (e.send frame).andThen fun taken e =>
        (transmit address opcode tag e rest).map (·.map (·.add taken))

/-- Look at the fragments of a batch, then send them: all of a batch but the wait for
its answer. -/
def dispatch (e : Endpoint) (fragments : List Octets) (address : UInt64)
    (opcode : Request.Opcode) (tag : UInt8) : Step (Except Error Dispatch) :=
  match fragments.findSome? fragmentError? with
  | some cause => { result := .error cause, endpoint := e, calls := [] }
  | none => transmit address (e.wireOpcode opcode) tag (e.enter .sending) fragments

/-- What a batch that went out comes to. -/
structure Outcome where
  completed : Bool
  /-- The data of the replies to a read, in order of arrival. -/
  responses : List Octets := []
  framesSent : Nat
  sendFailures : Nat

/-- Wait for what a batch of an operation is answered with, if the replies to a read
fit into a buffer. -/
def awaitAnswer? (e : Endpoint) (opcode : Request.Opcode) (fragments : Nat) (tag : UInt8) :
    Option (Step ReadResult) :=
  match opcode with
  | .write => some ((e.waitAck e.settings.ackTimeout tag).map fun completed => ⟨completed, []⟩)
  | .read => e.waitRead? e.settings.readTimeout fragments tag
  | .ack => some { result := ⟨false, []⟩, endpoint := e.enter .completed, calls := [] }

/-- Send a batch and wait for its answer (`send_batch_wait_ack`), if it has one. -/
def batch? (e : Endpoint) (fragments : List Octets) (address : UInt64)
    (opcode : Request.Opcode) (tag : UInt8) : Option (Step (Except Error Outcome)) :=
  let out := e.dispatch fragments address opcode tag
  match out.result with
  | .error cause => some { out with result := .error cause }
  | .ok d =>
    (out.endpoint.awaitAnswer? opcode fragments.length tag).map fun answer =>
      { result := .ok
          { completed := answer.result.completed
            responses := answer.result.responses
            framesSent := d.sent
            sendFailures := d.refused }
        endpoint := answer.endpoint
        calls := out.calls ++ answer.calls }

/-- **A refused batch does nothing.** -/
theorem batch?_eq_of_cause {fragments : List Octets} {cause : Error}
    (h : fragments.findSome? fragmentError? = some cause) (e : Endpoint) (address : UInt64)
    (opcode : Request.Opcode) (tag : UInt8) :
    e.batch? fragments address opcode tag =
      some { result := .error cause, endpoint := e, calls := [] } := by
  simp only [batch?, dispatch, h]

/-- Write fragments at an address (`write`). -/
def write? (e : Endpoint) (fragments : List Octets) (address : UInt64) (tag : UInt8) :
    Option (Step (Except Error Outcome)) :=
  e.batch? fragments address .write tag

/-- Octets that a list of fragments takes for each of them besides its own: where it
is, its length and its room, a word each. -/
def fragmentRecordSize : Nat := 24

/-- The fragments of a read of `length` bytes, `count` times, fit into buffers: the one
they are all made from, the list of them, and their octets together. -/
def RequestsFit (length count : Nat) : Prop :=
  Buffer.Fits length 1 ∧ Buffer.Fits count fragmentRecordSize ∧ Buffer.Fits count length

instance (length count : Nat) : Decidable (RequestsFit length count) :=
  inferInstanceAs (Decidable (_ ∧ _))

/-- The fragments of a read: zeros, as many as are read. -/
def requests (length count : Nat) : List Octets := List.replicate count (List.replicate length 0)

/-- Read `length` bytes at an address, `count` times (`read`), if the fragments and the
replies fit into buffers.  Where the length is one that cannot be sent, the first fragment
would be refused, so none is made. -/
def read? (e : Endpoint) (address : UInt64) (length count : Nat) (tag : UInt8) :
    Option (Step (Except Error Outcome)) :=
  if RequestsFit length count then
    match count, lengthError? length with
    | 0, _ => e.batch? [] address .read tag
    | _ + 1, some cause => some { result := .error cause, endpoint := e, calls := [] }
    | n + 1, none => e.batch? (requests length (n + 1)) address .read tag
  else none

/-- **A read is a batch of equal fragments,** if they fit into buffers. -/
theorem read?_eq_batch? {length count : Nat} (e : Endpoint) (address : UInt64) (tag : UInt8)
    (h : RequestsFit length count) :
    e.read? address length count tag = e.batch? (requests length count) address .read tag := by
  unfold read?
  rw [if_pos h]
  split
  · rfl
  · rename_i cause hlength
    refine (batch?_eq_of_cause ?_ ..).symm
    simp [requests, List.replicate_succ, fragmentError?, hlength]
  · rfl

theorem read?_eq_none {length count : Nat} (h : ¬ RequestsFit length count) (e : Endpoint)
    (address : UInt64) (tag : UInt8) : e.read? address length count tag = none := by
  unfold read?
  exact if_neg h

/-- Acknowledge a request (`send_ack`).  One byte is acknowledged, whatever was written; the
result is whether the link took the frame. -/
def sendAck (e : Endpoint) (address : UInt64) (tag : UInt8) : Step (Except Error Bool) :=
  match e.frameFor address [0] e.settings.ackOpcode tag with
  | .error cause => { result := .error cause, endpoint := e, calls := [] }
  | .ok frame => (e.send frame).map .ok

end Endpoint
end RemoteMemory
