/-
# Runs of the two sides of a wire

The transport boundary of `SPEC_FULL.md`, section 6, between two interfaces.

What was asked and what came of it, in order, are the deeds of a run (`Wire.deeds`), and
`Wire.Reaches` leads from a wire along them to the wire they leave (`reaches_run`).  Seen
from the host a deed is one of two things: the host takes what is pending and counts what
its filter takes (`HostTakes`), or the device puts frames behind it.

The main statement is `Reaches.fifo`: what the host has heard and what is pending toward
it are, one behind the other, what was pending before and what the device has put on the
wire since.
-/

import Mathlib
import RemoteMemory.Wire
import RemoteMemory.Proofs.Operation

namespace RemoteMemory

/-- A frame that is delivered at once. -/
def Arrival.now (frame : Octets) : Arrival := { frame := some frame }

namespace Link

/-- The link holds frames that it delivers at once, in this order, and nothing else. -/
def Holds (l : Link) (frames : List Octets) : Prop := l.pending = frames.map .now

/-- The frame as it fits into the receive buffer. -/
def received (frame : Octets) : Octets := frame.take bufferSize

theorem Holds.delivered {l : Link} {frames : List Octets} (h : l.Holds frames) (k : ℕ) :
    l.delivered k = (frames.take k).map received := by
  rw [delivered_eq, show l.pending = _ from h, ← List.map_take, List.filterMap_map,
    ← List.filterMap_eq_map]
  rfl

/-- A filter that takes frames as they are received for what they were picks the same. -/
theorem Holds.filter_delivered {l : Link} {frames : List Octets} (h : l.Holds frames)
    {p : Octets → Bool} (hp : ∀ f, p (received f) = p f) (k : ℕ) :
    (l.delivered k).filter p = ((frames.take k).filter p).map received := by
  rw [h.delivered, List.filter_map, show p ∘ received = p from funext hp]

theorem Holds.load {l : Link} {frames : List Octets} (h : l.Holds frames) (more : List Octets) :
    (l.load (more.map .now) []).Holds (frames ++ more) := by
  rw [Holds, List.map_append, ← show l.pending = _ from h]
  rfl

end Link

namespace Endpoint

/-- The filter takes a frame as it is received for what it was. -/
theorem accepts_received (e : Endpoint) (opcode tag : UInt8) (frame : Octets) :
    e.accepts opcode tag (Link.received frame) = e.accepts opcode tag frame :=
  accepts_take (by decide) ..

theorem recognizes_received (e : Endpoint) (awaited : Awaited) (frame : Octets) :
    e.recognizes awaited (Link.received frame) = e.recognizes awaited frame := by
  simp only [recognizes, accepts_received]

end Endpoint

/-- What a side was asked, and what came of it. -/
structure Deed where
  side : Side
  op : Operation
  step : Step Answer

namespace Deed

/-- The frames that the device put on the wire, toward the host. -/
def sent (ds : List Deed) : List Octets :=
  ds.flatMap fun d => if d.side = .device then Call.taken d.step.calls else []

/-- The frames that the host heard. -/
def heard (ds : List Deed) : List Octets :=
  ds.flatMap fun d => if d.side = .host then Call.heard d.step.calls else []

variable (op : Operation) (s : Step Answer) (ds : List Deed)

@[simp] theorem sent_nil : sent [] = [] := rfl

@[simp] theorem sent_host : sent (⟨.host, op, s⟩ :: ds) = sent ds := rfl

@[simp] theorem sent_device : sent (⟨.device, op, s⟩ :: ds) = Call.taken s.calls ++ sent ds := rfl

@[simp] theorem heard_nil : heard [] = [] := rfl

@[simp] theorem heard_host : heard (⟨.host, op, s⟩ :: ds) = Call.heard s.calls ++ heard ds := rfl

@[simp] theorem heard_device : heard (⟨.device, op, s⟩ :: ds) = heard ds := rfl

end Deed

namespace Wire

/-- What a side answers is what its endpoint answers, and the other side gets the frames
taken. -/
theorem perform?_eq_some_iff {w next : Wire} {side : Side} {op : Operation} {s : Step Answer} :
    w.perform? side op = some (s, next) ↔
      (w.endpoint side).perform? op = some s ∧
        (w.set side s.endpoint).deliver side.other (Call.taken s.calls) = next := by
  rw [perform?, Option.map_eq_some_iff]
  constructor
  · rintro ⟨t, ht, heq⟩
    obtain ⟨rfl, hnext⟩ := Prod.mk.inj heq
    exact ⟨ht, hnext⟩
  · rintro ⟨hs, rfl⟩
    exact ⟨s, hs, rfl⟩

/-- The deeds of a run: every answer with the side and the operation it is for. -/
def deeds (w : Wire) (ops : List (Side × Operation)) : List Deed :=
  List.zipWith (fun asked done => ⟨asked.1, asked.2, done.2⟩) ops (w.run ops).1

/-- One deed after the other leads from a wire to another. -/
inductive Reaches : Wire → List Deed → Wire → Prop
  | refl (w : Wire) : Reaches w [] w
  | step {w next last : Wire} {side : Side} {op : Operation} {s : Step Answer} {ds : List Deed}
      (hstep : w.perform? side op = some (s, next)) (hrest : Reaches next ds last) :
      Reaches w (⟨side, op, s⟩ :: ds) last

/-- **A run leads along its deeds.** -/
theorem reaches_run (w : Wire) (ops : List (Side × Operation)) :
    w.Reaches (w.deeds ops) (w.run ops).2 := by
  induction ops generalizing w with
  | nil => exact .refl w
  | cons asked ops ih =>
    obtain ⟨side, op⟩ := asked
    rw [deeds, run]
    cases h : w.perform? side op with
    | none => exact .refl w
    | some done => exact .step h (ih done.2)

/-- Every prefix of the deeds leads somewhere. -/
theorem Reaches.exists_take {w last : Wire} {ds : List Deed} (h : w.Reaches ds last) (n : ℕ) :
    ∃ mid, w.Reaches (ds.take n) mid := by
  induction h generalizing n with
  | refl w => exact ⟨w, by rw [List.take_nil]; exact .refl w⟩
  | @step w _ _ _ _ _ _ hstep _ ih =>
    cases n with
    | zero => exact ⟨w, .refl w⟩
    | succ n =>
      obtain ⟨mid, hmid⟩ := ih n
      exact ⟨mid, .step hstep hmid⟩

/-- **Every answer of a run accounts for the frames counted,** on either side. -/
theorem Reaches.accounts {w last : Wire} {ds : List Deed} (h : w.Reaches ds last) :
    ∀ d ∈ ds, d.op.awaited.Accounts d.step := by
  induction h with
  | refl w => simp
  | step hstep _ ih =>
    obtain ⟨hs, -⟩ := perform?_eq_some_iff.1 hstep
    exact List.forall_mem_cons.2 ⟨Endpoint.accounts_of_perform? hs, ih⟩

/-- Neither side is set up anew by what either does. -/
theorem setUpLike_of_perform? {w next : Wire} {side : Side} {op : Operation} {s : Step Answer}
    (h : w.perform? side op = some (s, next)) (side' : Side) :
    (next.endpoint side').SetUpLike (w.endpoint side') := by
  obtain ⟨hs, rfl⟩ := perform?_eq_some_iff.1 h
  obtain ⟨sends, k, hd⟩ := Endpoint.exists_does_of_perform? hs
  cases side <;> cases side'
  · exact hd.setUpLike
  · exact ⟨rfl, rfl, rfl, rfl⟩
  · exact ⟨rfl, rfl, rfl, rfl⟩
  · exact hd.setUpLike

theorem Reaches.setUpLike {w last : Wire} {ds : List Deed} (h : w.Reaches ds last) (side : Side) :
    (last.endpoint side).SetUpLike (w.endpoint side) := by
  induction h with
  | refl w => exact .refl _
  | step hstep _ ih => exact ih.trans (setUpLike_of_perform? hstep side)

/-- The host takes the first `k` frames that are pending, hears them as they fit into its
buffer, and counts those that are what it awaits. -/
structure HostTakes (frames : List Octets) (w : Wire) (op : Operation) (k : ℕ)
    (s : Step Answer) (next : Wire) : Prop where
  bound : k ≤ frames.length
  heard : Call.heard s.calls = (frames.take k).map Link.received
  counted : Call.counted s.calls =
    ((frames.take k).filter (w.host.recognizes op.awaited)).map Link.received
  holds : next.host.link.Holds (frames.drop k)

/-- **What the host does** is to take frames. -/
theorem exists_hostTakes {w next : Wire} {op : Operation} {s : Step Answer} {frames : List Octets}
    (h : w.perform? .host op = some (s, next)) (hw : w.host.link.Holds frames) :
    ∃ k, HostTakes frames w op k s next := by
  obtain ⟨hs, rfl⟩ := perform?_eq_some_iff.1 h
  obtain ⟨sends, k, hd⟩ := Endpoint.exists_does_of_perform? hs
  have htake : frames.take k = frames.take (min k frames.length) := List.take_eq_take_min
  refine ⟨min k frames.length, min_le_right .., ?_, ?_, ?_⟩
  · rw [hd.heard, ← htake]
    exact hw.delivered k
  · rw [hd.counted, ← htake]
    exact hw.filter_delivered (w.host.recognizes_received op.awaited) k
  · have hdrop : s.endpoint.link.pending = (frames.drop k).map .now := by
      rw [hd.pending, List.map_drop]
      exact congrArg _ hw
    rw [show frames.drop (min k frames.length) = frames.drop k by simp [List.drop_eq_drop_min]]
    exact hdrop

/-- **What the device does** puts frames behind what is pending toward the host. -/
theorem holds_of_device {w next : Wire} {op : Operation} {s : Step Answer} {frames : List Octets}
    (h : w.perform? .device op = some (s, next)) (hw : w.host.link.Holds frames) :
    next.host.link.Holds (frames ++ Call.taken s.calls) := by
  obtain ⟨-, rfl⟩ := perform?_eq_some_iff.1 h
  exact hw.load _

/-- **Nothing is lost or reordered.**  What the host has heard and what is pending toward
it are what was pending and what the device has put on the wire since. -/
theorem Reaches.fifo {w last : Wire} {ds : List Deed} (h : w.Reaches ds last)
    {frames : List Octets} (hw : w.host.link.Holds frames) :
    Deed.heard ds = ((frames ++ Deed.sent ds).take (Deed.heard ds).length).map Link.received ∧
      last.host.link.Holds ((frames ++ Deed.sent ds).drop (Deed.heard ds).length) := by
  induction h generalizing frames with
  | refl w => exact ⟨rfl, by simpa using hw⟩
  | @step w next last side op s ds hstep _ ih =>
    cases side with
    | host =>
      obtain ⟨k, hk⟩ := exists_hostTakes hstep hw
      obtain ⟨hheard, hholds⟩ := ih hk.holds
      have hlength : (Deed.heard (⟨.host, op, s⟩ :: ds)).length = k + (Deed.heard ds).length := by
        simp [hk.heard, hk.bound]
      have hdrop : frames.drop k ++ Deed.sent ds = (frames ++ Deed.sent ds).drop k :=
        (List.drop_append_of_le_length hk.bound).symm
      rw [hdrop] at hheard hholds
      rw [hlength, Deed.sent_host, List.take_add, List.map_append, ← hheard, ← List.drop_drop,
        List.take_append_of_le_length hk.bound, Deed.heard_host, hk.heard]
      exact ⟨rfl, hholds⟩
    | device =>
      obtain ⟨hheard, hholds⟩ := ih (holds_of_device hstep hw)
      rw [Deed.heard_device, Deed.sent_device, ← List.append_assoc]
      exact ⟨hheard, hholds⟩

end Wire

end RemoteMemory
