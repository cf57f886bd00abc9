/-
# The link under an endpoint

`send_frame` and `recv_frame` of the transport boundary `RawLink`, `SPEC_FULL.md`, section 6,
and the time that passes in polls, section 5.

A link takes frames that are offered to it or refuses them, and delivers frames
when it is polled.  It is given by what will happen on it:

* `pending`: what the next polls bring, first one first.  A poll takes the time of
  its arrival and delivers the frame that came with it, if one did.
* `idle`: how long a poll takes that finds nothing pending.  It delivers nothing.
* `answers`: whether the next frames offered are taken.  Behind them every frame is.

Time is in microseconds and passes in polls only.  What a link holds for the
future is the sequence `arrival` with its running time `clock`; a poll takes the
first arrival and leaves the rest of the sequence (`poll_fst`, `arrival_poll`).

A link with nothing pending whose idle polls take no time is `Silent`: it can be
polled for ever, and no deadline comes nearer.  The main statement is `poll_lt`: on
any other link a poll uses up an arrival, or time.
-/

import RemoteMemory.Octets

namespace RemoteMemory

/-- What one poll brings. -/
structure Arrival where
  micros : Nat := 0
  frame : Option Octets := none
deriving DecidableEq

/-- A link, given by what will happen on it. -/
structure Link where
  pending : List Arrival := []
  answers : List Bool := []
  idle : Nat := 1000
deriving DecidableEq

namespace Link

/-- Octets of the buffer a frame is received into; a longer frame is cut. -/
def bufferSize : Nat := 2048

/-- The arrival as it fits into the receive buffer. -/
def cut (a : Arrival) : Arrival := { a with frame := a.frame.map (·.take bufferSize) }

/-- Wait for the next arrival (`recv_frame`). -/
def poll (l : Link) : Arrival × Link :=
  match l.pending with
  | [] => ({ micros := l.idle }, l)
  | a :: rest => (cut a, { l with pending := rest })

/-- Offer a frame (`send_frame`): whether it is taken does not depend on it. -/
def offer (l : Link) : Bool × Link :=
  match l.answers with
  | [] => (true, l)
  | taken :: rest => (taken, { l with answers := rest })

/-- More arrivals and more answers, behind those there are. -/
def load (l : Link) (arrivals : List Arrival) (answers : List Bool) : Link :=
  { l with pending := l.pending ++ arrivals, answers := l.answers ++ answers }

/-- Polls bring nothing and take no time. -/
def Silent (l : Link) : Prop := l.pending = [] ∧ l.idle = 0

instance (l : Link) : Decidable l.Silent := inferInstanceAs (Decidable (_ ∧ _))

theorem not_silent_of_idle_pos {l : Link} (h : 0 < l.idle) : ¬ l.Silent := by
  intro hs
  have := hs.2
  omega

/-- What poll `k` brings, counted from 0. -/
def arrival (l : Link) (k : Nat) : Arrival :=
  match l.pending[k]? with
  | some a => cut a
  | none => { micros := l.idle }

/-- The time that passes before poll `k`. -/
def clock (l : Link) : Nat → Nat
  | 0 => 0
  | k + 1 => l.clock k + (l.arrival k).micros

@[simp] theorem poll_fst (l : Link) : l.poll.1 = l.arrival 0 := by
  unfold poll arrival
  split <;> simp_all

/-- After a poll the others come one earlier. -/
@[simp] theorem arrival_poll (l : Link) (k : Nat) : l.poll.2.arrival k = l.arrival (k + 1) := by
  obtain ⟨pending, answers, idle⟩ := l
  cases pending <;> simp [poll, arrival]

@[simp] theorem answers_poll (l : Link) : l.poll.2.answers = l.answers := by
  unfold poll
  split <;> rfl

@[simp] theorem pending_poll (l : Link) : l.poll.2.pending = l.pending.tail := by
  unfold poll
  split <;> simp_all

@[simp] theorem idle_poll (l : Link) : l.poll.2.idle = l.idle := by
  unfold poll
  split <;> rfl

/-- **A poll makes progress,** unless the link is silent: it uses up an arrival, or
time. -/
theorem poll_lt {l : Link} {left : Nat} (hs : ¬ l.Silent) (h : 0 < left) :
    l.poll.2.pending.length + (left - l.poll.1.micros) < l.pending.length + left := by
  unfold poll
  split
  · rename_i hp
    have hi : l.idle ≠ 0 := fun hi => hs ⟨hp, hi⟩
    simp only
    omega
  · rename_i a rest hp
    simp only [hp, List.length_cons]
    omega

end Link

end RemoteMemory
