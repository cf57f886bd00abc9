/-
# Waiting for replies

`wait_ack` and `wait_read`, `SPEC_FULL.md`, section 4.5.

A watch polls the link of an endpoint until it has counted the replies it wants or
its time is up.  Both are looked at before every poll and never inside one: with
no time or nothing wanted there is no poll, and a reply is counted even if its
own poll passes the deadline.

An acknowledgment is a watch for one reply, a read a watch for one reply per
fragment; replies to a read are gathered in a buffer, and a wait for more than fit
into one has no answer (`waitRead?`).  `run` ends because a poll uses up an arrival or
time (`Link.poll_lt`).

On a silent link neither happens, and a watch that still wants replies and has time
left would go on for ever.  `run` stops there, and the endpoint stays in its waiting
phase.  Where idle polls take time no link is silent, and every watch ends with nothing
missing or no time left.
-/

import RemoteMemory.Buffer
import RemoteMemory.Endpoint.Basic

namespace RemoteMemory

/-- A watch between two polls. -/
structure Watch where
  endpoint : Endpoint
  /-- Time left before the deadline. -/
  left : Nat
  /-- Replies still wanted. -/
  missing : Nat
  /-- The polls so far, last one first. -/
  calls : List Call := []

namespace Watch

/-- One poll, counting the frame it delivers if that is a reply. -/
def poll (opcode tag : UInt8) (w : Watch) : Watch :=
  let (arrival, link) := w.endpoint.link.poll
  let counted := arrival.frame.any (w.endpoint.accepts opcode tag)
  { endpoint := { w.endpoint with link }
    left := w.left - arrival.micros
    missing := if counted then w.missing - 1 else w.missing
    calls := .poll arrival counted :: w.calls }

/-- Poll until nothing is missing, no time is left, or the link is silent. -/
def run (opcode tag : UInt8) (w : Watch) : Watch :=
  if _h : 0 < w.missing ∧ 0 < w.left ∧ ¬ w.endpoint.link.Silent then
    run opcode tag (w.poll opcode tag)
  else w
termination_by w.endpoint.link.pending.length + w.left
decreasing_by exact Link.poll_lt _h.2.2 _h.2.1

/-- The endpoint after a watch: done, too late, or still waiting on a silent link. -/
def settled (w : Watch) : Endpoint :=
  if w.missing = 0 then w.endpoint.enter .completed
  else if w.left = 0 then w.endpoint.enter .timedOut
  else w.endpoint

end Watch

namespace Endpoint

/-- Wait in a phase until `wanted` replies are counted or the time is up.  The
result is whether all came. -/
def await (e : Endpoint) (phase : Phase) (opcode tag : UInt8) (wanted timeout : Nat) :
    Step Bool :=
  let w := Watch.run opcode tag { endpoint := e.enter phase, left := timeout, missing := wanted }
  { result := w.missing == 0, endpoint := w.settled, calls := w.calls.reverse }

/-- Wait for an acknowledgment (`wait_ack`). -/
def waitAck (e : Endpoint) (timeout : Nat) (tag : UInt8) : Step Bool :=
  e.await .awaitingAck e.settings.ackOpcode tag 1 timeout

/-- The data of a reply (`to_fragment`): what is behind the headers, brought to the size of
the largest payload. -/
def replyData (frame : Octets) : Octets :=
  Octets.resize Request.maxPayload (frame.drop Request.frameHeaderSize)

/-- What a wait for the replies to a read comes to. -/
structure ReadResult where
  completed : Bool
  responses : List Octets

/-- Gather the replies to a read, in a buffer that is long enough. -/
def gather (e : Endpoint) (timeout expected : Nat) (tag : UInt8) : Step ReadResult :=
  let s := e.await .awaitingRead Request.Opcode.read.value tag expected timeout
  s.map fun completed => { completed, responses := (Call.counted s.calls).map replyData }

/-- Wait for the replies to a read (`wait_read`), if the data of as many as are expected
fits into a buffer. -/
def waitRead? (e : Endpoint) (timeout expected : Nat) (tag : UInt8) : Option (Step ReadResult) :=
  if Buffer.Fits expected Request.maxPayload then some (e.gather timeout expected tag) else none

theorem waitRead?_eq_some_iff {e : Endpoint} {timeout expected : Nat} {tag : UInt8}
    {s : Step ReadResult} :
    e.waitRead? timeout expected tag = some s ↔
      Buffer.Fits expected Request.maxPayload ∧ e.gather timeout expected tag = s := by
  unfold waitRead?
  split <;> simp_all

end Endpoint

end RemoteMemory
