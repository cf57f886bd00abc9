/-
# What a step does to its endpoint

The operations of `SPEC_FULL.md`, section 4.5, on the transport boundary of section 6.

Whatever an endpoint is asked, it first offers frames and then polls for replies of one
kind, or not at all.  Of the endpoint only the link and the phase change: so many arrivals
are gone as there were polls.  That is `Endpoint.Does`, with the frames offered, what is
awaited and the number of polls.  It holds of a frame sent (`does_send`) and of a wait
(`exists_does_waitAck`, `exists_does_gather`), and everything an endpoint does is made of
these.
-/

import Mathlib
import RemoteMemory.Proofs.Watch

namespace RemoteMemory

/-- What is waited for. -/
inductive Awaited where
  | nothing
  /-- One acknowledgment. -/
  | ack (tag : UInt8)
  /-- The replies to a read. -/
  | replies (tag : UInt8)
deriving DecidableEq

/-- The operation octet and the tag of a reply. -/
structure Mark where
  opcode : UInt8
  tag : UInt8

/-- The mark of what is waited for under some settings. -/
def Awaited.mark? (settings : Settings) : Awaited → Option Mark
  | .nothing => none
  | .ack tag => some ⟨settings.ackOpcode, tag⟩
  | .replies tag => some ⟨Request.Opcode.read.value, tag⟩

namespace Call

/-- A frame is offered. -/
def IsSend (c : Call) : Prop := ∃ frame taken, c = .send frame taken

/-- The frames that polls delivered, in order. -/
def heard (calls : List Call) : List Octets := (arrivals calls).filterMap Arrival.frame

theorem offered_append (cs cs' : List Call) : offered (cs ++ cs') = offered cs ++ offered cs' :=
  List.filterMap_append

theorem taken_append (cs cs' : List Call) : taken (cs ++ cs') = taken cs ++ taken cs' :=
  List.filterMap_append

theorem arrivals_append (cs cs' : List Call) : arrivals (cs ++ cs') = arrivals cs ++ arrivals cs' :=
  List.filterMap_append

theorem counted_append (cs cs' : List Call) : counted (cs ++ cs') = counted cs ++ counted cs' :=
  List.filterMap_append

/-- The time that passes in calls one behind the other. -/
theorem elapsed_append (cs cs' : List Call) : elapsed (cs ++ cs') = elapsed cs + elapsed cs' := by
  rw [elapsed, elapsed, elapsed, arrivals_append]
  induction arrivals cs with
  | nil => exact (Nat.zero_add _).symm
  | cons a as ih => rw [List.cons_append, List.foldr_cons, List.foldr_cons, ih, Nat.add_assoc]

theorem arrivals_of_sends {cs : List Call} (h : ∀ c ∈ cs, c.IsSend) : arrivals cs = [] := by
  rw [arrivals, List.filterMap_eq_nil_iff]
  intro c hc
  obtain ⟨frame, taken, rfl⟩ := h c hc
  rfl

theorem elapsed_of_sends {cs : List Call} (h : ∀ c ∈ cs, c.IsSend) : elapsed cs = 0 := by
  rw [elapsed, arrivals_of_sends h]
  rfl

theorem counted_of_sends {cs : List Call} (h : ∀ c ∈ cs, c.IsSend) : counted cs = [] := by
  rw [counted, List.filterMap_eq_nil_iff]
  intro c hc
  obtain ⟨frame, taken, rfl⟩ := h c hc
  rfl

end Call

namespace Endpoint

/-- A frame is counted while something is awaited. -/
def recognizes (e : Endpoint) (awaited : Awaited) (frame : Octets) : Bool :=
  (awaited.mark? e.settings).any fun m => e.accepts m.opcode m.tag frame

/-- An endpoint set up as another is: they differ in what happens on their links and in
their phases only. -/
structure SetUpLike (e' e : Endpoint) : Prop where
  settings : e'.settings = e.settings
  mac : e'.mac = e.mac
  peer : e'.peer = e.peer
  idle : e'.link.idle = e.link.idle

namespace SetUpLike

variable {e e' e'' : Endpoint}

theorem refl (e : Endpoint) : e.SetUpLike e := ⟨rfl, rfl, rfl, rfl⟩

theorem trans (h : e''.SetUpLike e') (h' : e'.SetUpLike e) : e''.SetUpLike e :=
  ⟨h.settings.trans h'.settings, h.mac.trans h'.mac, h.peer.trans h'.peer, h.idle.trans h'.idle⟩

/-- Endpoints that are set up alike have one filter. -/
theorem accepts_eq (h : e'.SetUpLike e) : e'.accepts = e.accepts := by
  funext opcode tag frame
  simp only [accepts, h.settings, h.peer]

theorem recognizes_eq (h : e'.SetUpLike e) : e'.recognizes = e.recognizes := by
  funext awaited frame
  simp only [recognizes, h.settings, h.accepts_eq]

end SetUpLike

/-- The calls of `k` polls for what is awaited. -/
def pollsFor (e : Endpoint) (awaited : Awaited) (k : ℕ) : List Call :=
  match awaited.mark? e.settings with
  | some m => e.polls m.opcode m.tag k
  | none => []

@[simp] theorem offered_pollsFor (e : Endpoint) (awaited : Awaited) (k : ℕ) :
    Call.offered (e.pollsFor awaited k) = [] := by
  cases awaited with
  | nothing => rfl
  | _ => exact offered_polls ..

@[simp] theorem taken_pollsFor (e : Endpoint) (awaited : Awaited) (k : ℕ) :
    Call.taken (e.pollsFor awaited k) = [] := by
  cases awaited with
  | nothing => rfl
  | _ => exact taken_polls ..

theorem exists_of_mem_pollsFor (e : Endpoint) {awaited : Awaited} {k : ℕ} {c : Call}
    (h : c ∈ e.pollsFor awaited k) : ∃ arrival counted, c = .poll arrival counted := by
  cases awaited with
  | nothing => cases h
  | _ =>
    obtain ⟨i, -, rfl⟩ := List.mem_map.1 h
    exact ⟨_, _, rfl⟩

/-- The endpoint with its first `k` arrivals gone, other answers and another phase. -/
def moved (e : Endpoint) (k : ℕ) (answers : List Bool) (phase : Phase) : Endpoint :=
  { e with
    link := { e.link with pending := e.link.pending.drop k, answers }
    phase }

/-- A step makes the calls `sends`, then `k` polls for what is awaited, and leaves the rest
of the endpoint alone. -/
structure Does {α : Type} (e : Endpoint) (sends : List Call) (awaited : Awaited) (k : ℕ)
    (s : Step α) : Prop where
  isSend : ∀ c ∈ sends, c.IsSend
  calls : s.calls = sends ++ e.pollsFor awaited k
  endpoint : ∃ answers phase, s.endpoint = e.moved k answers phase
  idle : awaited = .nothing → k = 0

namespace Does

variable {α β : Type} {e : Endpoint} {sends : List Call} {awaited : Awaited} {k : ℕ} {s : Step α}

theorem map (h : e.Does sends awaited k s) (f : α → β) : e.Does sends awaited k (s.map f) :=
  ⟨h.isSend, h.calls, h.endpoint, h.idle⟩

/-- The settings of an endpoint, the addresses and how long an idle poll takes stay. -/
theorem setUpLike (h : e.Does sends awaited k s) : s.endpoint.SetUpLike e := by
  obtain ⟨answers, phase, hs⟩ := h.endpoint
  rw [hs]
  exact ⟨rfl, rfl, rfl, rfl⟩

theorem pending (h : e.Does sends awaited k s) :
    s.endpoint.link.pending = e.link.pending.drop k := by
  obtain ⟨answers, phase, hs⟩ := h.endpoint
  rw [hs]
  rfl

theorem offered (h : e.Does sends awaited k s) : Call.offered s.calls = Call.offered sends := by
  rw [h.calls, Call.offered_append, offered_pollsFor, List.append_nil]

theorem taken (h : e.Does sends awaited k s) : Call.taken s.calls = Call.taken sends := by
  rw [h.calls, Call.taken_append, taken_pollsFor, List.append_nil]

/-- **A step hears what its polls deliver.** -/
theorem heard (h : e.Does sends awaited k s) : Call.heard s.calls = e.link.delivered k := by
  rw [Call.heard, h.calls, Call.arrivals_append, Call.arrivals_of_sends h.isSend, List.nil_append]
  cases awaited with
  | nothing => rw [h.idle rfl]; rfl
  | ack tag => exact (congrArg _ (arrivals_polls ..)).trans List.filterMap_map
  | replies tag => exact (congrArg _ (arrivals_polls ..)).trans List.filterMap_map

/-- **A step counts the frames delivered that the filter takes** for what is awaited. -/
theorem counted (h : e.Does sends awaited k s) :
    Call.counted s.calls = (e.link.delivered k).filter (e.recognizes awaited) := by
  rw [h.calls, Call.counted_append, Call.counted_of_sends h.isSend, List.nil_append]
  cases awaited with
  | nothing => exact (List.filter_eq_nil_iff.2 fun f _ => Bool.false_ne_true).symm
  | ack tag => exact counted_polls ..
  | replies tag => exact counted_polls ..

end Does

variable {α : Type}

/-- A step that does nothing, whatever would have been awaited. -/
theorem does_nothing (e : Endpoint) (awaited : Awaited) (result : α) :
    e.Does [] awaited 0 { result, endpoint := e, calls := [] } := by
  refine ⟨by simp, ?_, ⟨e.link.answers, e.phase, rfl⟩, fun _ => rfl⟩
  cases awaited <;> rfl

theorem does_send (e : Endpoint) (frame : Octets) :
    e.Does [.send frame e.link.offer.1] .nothing 0 (e.send frame) := by
  refine ⟨fun c hc => ?_, rfl, ⟨e.link.answers.drop 1, e.phase, ?_⟩, fun _ => rfl⟩
  · obtain rfl := List.mem_singleton.1 hc
    exact ⟨_, _, rfl⟩
  · obtain ⟨settings, mac, peer, ⟨pending, answers, idle⟩, phase, hmac, hpeer⟩ := e
    cases answers <;> rfl

theorem exists_does_waitAck (e : Endpoint) (timeout : ℕ) (tag : UInt8) :
    ∃ k, e.Does [] (.ack tag) k (e.waitAck timeout tag) := by
  obtain ⟨k, -, h⟩ := e.waitAck_spec timeout tag
  refine ⟨k, ?_⟩
  rw [h]
  exact ⟨by simp, rfl, ⟨e.link.answers, _, rfl⟩, fun h => by cases h⟩

theorem exists_does_gather (e : Endpoint) (timeout expected : ℕ) (tag : UInt8) :
    ∃ k, e.Does [] (.replies tag) k (e.gather timeout expected tag) := by
  obtain ⟨k, -, h⟩ := e.gather_spec timeout expected tag
  refine ⟨k, ?_⟩
  rw [h]
  exact ⟨by simp, rfl, ⟨e.link.answers, _, rfl⟩, fun h => by cases h⟩

end Endpoint

end RemoteMemory
