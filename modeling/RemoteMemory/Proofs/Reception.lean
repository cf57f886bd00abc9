/-
# Receiving into one buffer

`recv_frame`, `SPEC_FULL.md`, section 6, into the buffer of `wait_read`, section 4.5.

The frames of a wait are all received into one buffer: each is written over the front of what
the frames before it left there, as far as it fits, and then looked at and copied from the
buffer (`Link.receive`, `Reception.poll`).  What is read there is as long as what was written,
so nothing of an earlier frame is read with it (`Link.frame_receive`).

The main statement is `Endpoint.gatherInto_eq`: gathering into a buffer comes to what gathering
frame by frame does, whatever the buffer holds before.
-/

import Mathlib
import RemoteMemory.Proofs.Watch

namespace RemoteMemory

namespace Octets

variable {buffer bs : Octets}

theorem length_overwrite_front (h : bs.length ≤ buffer.length) :
    (buffer.overwrite 0 bs).length = buffer.length := by
  simp only [overwrite, List.length_append, List.length_take, List.length_drop]
  omega

/-- What was written over the front is read back, at its length. -/
theorem take_overwrite_front : (buffer.overwrite 0 bs).take bs.length = bs := by
  rw [overwrite, List.take_zero, List.nil_append, List.take_left]

end Octets

namespace Link

/-- What comes of a poll into a buffer. -/
structure Receipt where
  /-- How many octets of the buffer were written, if there was a frame. -/
  filled : Option ℕ
  buffer : Octets
  micros : ℕ
  link : Link

/-- What was received: as much of the buffer as was written. -/
def Receipt.frame (r : Receipt) : Option Octets := r.filled.map r.buffer.take

/-- Poll into a buffer: a frame is written over its front, as far as it fits. -/
def receive (l : Link) (buffer : Octets) : Receipt :=
  match l.pending with
  | [] => { filled := none, buffer, micros := l.idle, link := l }
  | { micros, frame := none } :: rest =>
    { filled := none, buffer, micros, link := { l with pending := rest } }
  | { micros, frame := some frame } :: rest =>
    let front := frame.take buffer.length
    { filled := some front.length
      buffer := buffer.overwrite 0 front
      micros
      link := { l with pending := rest } }

variable (l : Link) (buffer : Octets)

@[simp] theorem micros_receive : (l.receive buffer).micros = l.poll.1.micros := by
  unfold receive poll
  split <;> simp_all [cut]

@[simp] theorem link_receive : (l.receive buffer).link = l.poll.2 := by
  unfold receive poll
  split <;> simp_all

variable {buffer}

theorem length_buffer_receive : (l.receive buffer).buffer.length = buffer.length := by
  unfold receive
  split
  · rfl
  · rfl
  · exact Octets.length_overwrite_front (List.length_take_le ..)

/-- **Nothing of the buffer is received but the frame,** cut to its length. -/
theorem frame_receive (h : buffer.length = bufferSize) :
    (l.receive buffer).frame = l.poll.1.frame := by
  unfold receive poll
  split
  · rename_i hp
    rw [hp]
    rfl
  · rename_i hp
    rw [hp]
    rfl
  · rename_i hp
    rw [hp]
    simp only [Receipt.frame, Option.map_some, Octets.take_overwrite_front, h, cut]

end Link

/-- A wait between two polls that gathers by way of one buffer. -/
structure Reception where
  link : Link
  buffer : Octets
  elapsed : ℕ := 0
  responses : List Octets := []

namespace Reception

section Loop

variable (e : Endpoint) (opcode tag : UInt8)

/-- One poll into the buffer; what was received is copied from there if it is a reply. -/
def poll (r : Reception) : Reception :=
  let receipt := r.link.receive r.buffer
  { link := receipt.link
    buffer := receipt.buffer
    elapsed := r.elapsed + receipt.micros
    responses :=
      match receipt.frame with
      | some frame =>
        if e.accepts opcode tag frame then r.responses ++ [Endpoint.replyData frame]
        else r.responses
      | none => r.responses }

/-- Poll until enough is gathered, the time is up, or the link is silent. -/
def run (wanted timeout : ℕ) (r : Reception) : Reception :=
  if _h : r.responses.length < wanted ∧ r.elapsed < timeout ∧ ¬ r.link.Silent then
    run wanted timeout (r.poll e opcode tag)
  else r
termination_by r.link.pending.length + (timeout - r.elapsed)
decreasing_by
  have hless := Link.poll_lt _h.2.2 (Nat.sub_pos_of_lt _h.2.1)
  rw [Nat.sub_sub] at hless
  simpa only [poll, Link.link_receive, Link.micros_receive] using hless

end Loop

variable {e : Endpoint} {opcode tag : UInt8} {wanted timeout : ℕ} {w : Watch} {r : Reception}

/-- A watch counts what a reception gathers. -/
structure Follows (e : Endpoint) (wanted timeout : ℕ) (w : Watch) (r : Reception) : Prop where
  endpoint : w.endpoint = { e with link := r.link }
  buffer : r.buffer.length = Link.bufferSize
  missing : w.missing = wanted - r.responses.length
  left : w.left = timeout - r.elapsed
  responses : r.responses = (Call.counted w.calls.reverse).map Endpoint.replyData

namespace Follows

/-- Both go on, or neither does. -/
theorem goes_iff (h : Follows e wanted timeout w r) :
    w.Goes ↔ r.responses.length < wanted ∧ r.elapsed < timeout ∧ ¬ r.link.Silent := by
  rw [Watch.Goes, h.missing, h.left, Nat.sub_pos_iff_lt, Nat.sub_pos_iff_lt, h.endpoint]

theorem poll (h : Follows e wanted timeout w r) (opcode tag : UInt8) :
    Follows e wanted timeout (w.poll opcode tag) (r.poll e opcode tag) := by
  have hlink : w.endpoint.link = r.link := by rw [h.endpoint]
  have hfilter : w.endpoint.accepts opcode tag = e.accepts opcode tag := by rw [h.endpoint]; rfl
  have hframe := r.link.frame_receive h.buffer
  rw [Link.poll_fst] at hframe
  simp only [Watch.poll, Reception.poll, hlink, hfilter, hframe, Link.poll_fst]
  refine ⟨?_, (r.link.length_buffer_receive).trans h.buffer, ?_, ?_, ?_⟩
  · simp only [h.endpoint, Link.link_receive]
  · cases hf : (r.link.arrival 0).frame with
    | none => exact h.missing
    | some f => cases ha : e.accepts opcode tag f <;> simp [h.missing, ha, Nat.sub_sub]
  · simp only [h.left, Link.micros_receive, Link.poll_fst, Nat.sub_sub]
  · rw [List.reverse_cons, Call.counted, List.filterMap_append, List.map_append]
    refine Eq.trans ?_ (congrArg (· ++ _) h.responses)
    cases hf : (r.link.arrival 0).frame with
    | none => simp
    | some f => cases ha : e.accepts opcode tag f <;> simp [hf, ha]

theorem run (h : Follows e wanted timeout w r) (opcode tag : UInt8) :
    Follows e wanted timeout (Watch.run opcode tag w) (r.run e opcode tag wanted timeout) := by
  fun_induction Watch.run opcode tag w generalizing r with
  | case1 w hgoes ih =>
    rw [Reception.run, dif_pos (h.goes_iff.1 hgoes)]
    exact ih (h.poll opcode tag)
  | case2 w hstop =>
    rw [Reception.run, dif_neg (mt h.goes_iff.2 hstop)]
    exact h

end Follows

end Reception

namespace Endpoint

/-- Gather the replies to a read by way of one buffer: what comes of it, and the endpoint
afterwards. -/
def gatherInto (e : Endpoint) (buffer : Octets) (timeout expected : ℕ) (tag : UInt8) :
    ReadResult × Endpoint :=
  let waiting := e.enter .awaitingRead
  let r := Reception.run waiting Request.Opcode.read.value tag expected timeout
    { link := e.link, buffer }
  ({ completed := decide (expected ≤ r.responses.length), responses := r.responses },
    { waiting with
      link := r.link
      phase :=
        if expected ≤ r.responses.length then .completed
        else if timeout ≤ r.elapsed then .timedOut
        else .awaitingRead })

/-- **One buffer is enough.**  Gathering by way of it comes to what gathering does, whatever it
holds before. -/
theorem gatherInto_eq (e : Endpoint) {buffer : Octets} (h : buffer.length = Link.bufferSize)
    (timeout expected : ℕ) (tag : UInt8) :
    e.gatherInto buffer timeout expected tag =
      ((e.gather timeout expected tag).result, (e.gather timeout expected tag).endpoint) := by
  have hstart : Reception.Follows (e.enter .awaitingRead) expected timeout
      { endpoint := e.enter .awaitingRead, left := timeout, missing := expected }
      { link := e.link, buffer } := ⟨rfl, h, rfl, rfl, rfl⟩
  have hend := hstart.run Request.Opcode.read.value tag
  simp only [gatherInto, gather, await, Step.map, Watch.settled, hend.missing, hend.left,
    Nat.sub_eq_zero_iff_le, ← hend.responses, Prod.mk.injEq]
  constructor
  · congr 1
    rw [Bool.eq_iff_iff, decide_eq_true_iff, beq_iff_eq, Nat.sub_eq_zero_iff_le]
  · rw [hend.endpoint]
    split_ifs <;> rfl

end Endpoint

end RemoteMemory
