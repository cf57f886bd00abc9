/-
# Operations of an endpoint, as data

What `FpgaInterface` offers (`SPEC_FULL.md`, section 4.5) and the frames its link is given
directly (`send_frame`, section 6).

All that can be asked of an endpoint, so that whole runs are lists of operations.
An operation that needs too long a buffer has no answer; a run ends there.
-/

import RemoteMemory.Endpoint.Batch

namespace RemoteMemory

/-- Something asked of an endpoint.  Timeouts are in microseconds. -/
inductive Operation where
  | batch (fragments : List Octets) (address : UInt64) (opcode : Request.Opcode) (tag : UInt8)
  | write (fragments : List Octets) (address : UInt64) (tag : UInt8)
  | read (address : UInt64) (length count : Nat) (tag : UInt8)
  | waitAck (timeout : Nat) (tag : UInt8)
  | waitRead (timeout expected : Nat) (tag : UInt8)
  | sendAck (address : UInt64) (tag : UInt8)
  /-- Offer a frame to the link as it is. -/
  | sendRaw (frame : Octets)
deriving DecidableEq

/-- What an operation answers. -/
inductive Answer where
  /-- Answer of a batch, a write or a read. -/
  | outcome (result : Except Error Endpoint.Outcome)
  /-- Whether the acknowledgment came. -/
  | acked (completed : Bool)
  /-- The replies to a read. -/
  | replies (result : Endpoint.ReadResult)
  /-- Whether the link took the acknowledgment. -/
  | ackSent (result : Except Error Bool)
  /-- Whether the link took the frame. -/
  | rawSent (taken : Bool)

namespace Endpoint

/-- Do what is asked, if it has an answer. -/
def perform? (e : Endpoint) : Operation → Option (Step Answer)
  | .batch fragments address opcode tag =>
    (e.batch? fragments address opcode tag).map (·.map .outcome)
  | .write fragments address tag => (e.write? fragments address tag).map (·.map .outcome)
  | .read address length count tag => (e.read? address length count tag).map (·.map .outcome)
  | .waitAck timeout tag => some ((e.waitAck timeout tag).map .acked)
  | .waitRead timeout expected tag => (e.waitRead? timeout expected tag).map (·.map .replies)
  | .sendAck address tag => some ((e.sendAck address tag).map .ackSent)
  | .sendRaw frame => some ((e.send frame).map .rawSent)

/-- Do one thing after the other, up to the first that has no answer. -/
def run (e : Endpoint) : List Operation → List (Step Answer)
  | [] => []
  | op :: rest =>
    match e.perform? op with
    | none => []
    | some s => s :: s.endpoint.run rest

end Endpoint

end RemoteMemory
