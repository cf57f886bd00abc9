/-
# Two endpoints on one wire

Two `FpgaInterface`s whose links (`RawLink`, `SPEC_FULL.md`, section 6) are the ends of one
wire.

A frame that one side's link takes is pending on the other side at once, behind
all that is pending there, and its delivery takes no time.  Nothing is lost or
reordered, and a side never hears its own frames.
-/

import RemoteMemory.Endpoint.Operation

namespace RemoteMemory

/-- A side of the wire. -/
inductive Side where
  | host
  | device
deriving DecidableEq

/-- The side across the wire. -/
def Side.other : Side → Side
  | .host => .device
  | .device => .host

/-- Two endpoints joined by a wire. -/
structure Wire where
  host : Endpoint
  device : Endpoint

namespace Wire

/-- Two endpoints with nothing pending.  The host's settings are read first. -/
def create (link : Link) (host device : Settings) : Except Error Wire := do
  let host ← Endpoint.create link host
  let device ← Endpoint.create link device
  return { host, device }

/-- **A new wire joins two new endpoints,** over links that are alike. -/
theorem create_eq_ok_iff {link : Link} {host device : Settings} {w : Wire} :
    create link host device = .ok w ↔
      Endpoint.create link host = .ok w.host ∧ Endpoint.create link device = .ok w.device := by
  unfold create
  cases Endpoint.create link host with
  | error cause => simp [bind, Except.bind]
  | ok h =>
    cases Endpoint.create link device with
    | error cause => simp [bind, Except.bind]
    | ok d =>
      obtain ⟨h', d'⟩ := w
      simp [bind, Except.bind, pure, Except.pure]

/-- The endpoint on a side. -/
def endpoint (w : Wire) : Side → Endpoint
  | .host => w.host
  | .device => w.device

/-- The wire with another endpoint on a side. -/
def set (w : Wire) (side : Side) (e : Endpoint) : Wire :=
  match side with
  | .host => { w with host := e }
  | .device => { w with device := e }

/-- Frames put on the wire toward a side. -/
def deliver (w : Wire) (side : Side) (frames : List Octets) : Wire :=
  w.set side ((w.endpoint side).load (frames.map fun frame => { frame := some frame }) [])

/-- One side does what is asked of it, if it has an answer; what its link takes goes
to the other. -/
def perform? (w : Wire) (side : Side) (op : Operation) : Option (Step Answer × Wire) :=
  ((w.endpoint side).perform? op).map fun s =>
    (s, (w.set side s.endpoint).deliver side.other (Call.taken s.calls))

/-- The sides do one thing after the other, up to the first that has no answer. -/
def run (w : Wire) : List (Side × Operation) → List (Side × Step Answer) × Wire
  | [] => ([], w)
  | (side, op) :: rest =>
    match w.perform? side op with
    | none => ([], w)
    | some (s, next) =>
      let (steps, last) := next.run rest
      ((side, s) :: steps, last)

@[simp] theorem endpoint_set_self (w : Wire) (side : Side) (e : Endpoint) :
    (w.set side e).endpoint side = e := by cases side <;> rfl

@[simp] theorem endpoint_set_other (w : Wire) (side : Side) (e : Endpoint) :
    (w.set side e).endpoint side.other = w.endpoint side.other := by cases side <;> rfl

end Wire

end RemoteMemory
