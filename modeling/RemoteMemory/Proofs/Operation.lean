/-
# What an operation does, and what its answer accounts for

The operations of `SPEC_FULL.md`, section 4.5.

What an answered operation does is said once (`Endpoint.Performs`): a batch, a write and a
read come down to a batch (`Operation.Sends`), and each of the others to one wait or one
frame.  What holds of every operation is read off there.  Every operation offers frames and
then polls for what it awaits (`Operation.awaited`), or fails before it does anything
(`Endpoint.exists_does_of_perform?`).

An answer is about the frames that the polls counted and no others (`Awaited.Accounts`):
an acknowledgment came exactly if the last poll counted a frame, the only one, and the data
of a read is that of the frames counted, in order (`Endpoint.accounts_of_perform?`).
-/

import Mathlib
import RemoteMemory.Endpoint.Operation
import RemoteMemory.Proofs.Batch

namespace RemoteMemory

/-- What an operation waits for, if it waits at all. -/
def Operation.awaited : Operation → Awaited
  | .batch _ _ opcode tag => Endpoint.awaitedBy tag opcode
  | .write _ _ tag => .ack tag
  | .read _ _ _ tag => .replies tag
  | .waitAck _ tag => .ack tag
  | .waitRead _ _ tag => .replies tag
  | .sendAck _ _ => .nothing
  | .sendRaw _ => .nothing

namespace Answer

/-- Whether an answer says that all that was waited for came. -/
def completed : Answer → Bool
  | .outcome (.ok o) => o.completed
  | .acked completed => completed
  | .replies r => r.completed
  | _ => false

/-- The data an answer holds. -/
def responses : Answer → List Octets
  | .outcome (.ok o) => o.responses
  | .replies r => r.responses
  | _ => []

end Answer

namespace Call

/-- Calls that end with an acknowledgment, the only frame they count; or that count none. -/
def EndWithAck (came : Bool) (calls : List Call) : Prop :=
  if came = true then
    ∃ earlier micros frame, calls = earlier ++ [.poll { micros, frame := some frame } true] ∧
      counted earlier = []
  else counted calls = []

/-- Calls that count nothing may stand in front. -/
theorem EndWithAck.append {came : Bool} {calls : List Call} (h : EndWithAck came calls)
    {sends : List Call} (hs : counted sends = []) : EndWithAck came (sends ++ calls) := by
  unfold EndWithAck at h ⊢
  split_ifs at h ⊢
  · obtain ⟨earlier, micros, frame, rfl, hnone⟩ := h
    exact ⟨sends ++ earlier, micros, frame, (List.append_assoc ..).symm,
      by rw [counted_append, hs, hnone]; rfl⟩
  · rw [counted_append, hs, h]
    rfl

theorem EndWithAck.length_counted {came : Bool} {calls : List Call} (h : EndWithAck came calls) :
    (counted calls).length = if came = true then 1 else 0 := by
  unfold EndWithAck at h
  split_ifs at h ⊢
  · obtain ⟨earlier, micros, frame, rfl, hnone⟩ := h
    rw [counted_append, hnone]
    rfl
  · rw [h]
    rfl

end Call

/-- An answer accounts for the frames counted: an acknowledgment is the last frame polled
and the only one counted, replies are all frames counted, and where nothing is awaited no
frame is counted. -/
def Awaited.Accounts (awaited : Awaited) (s : Step Answer) : Prop :=
  match awaited with
  | .nothing => Call.counted s.calls = []
  | .ack _ => Call.EndWithAck s.result.completed s.calls
  | .replies _ => s.result.responses = (Call.counted s.calls).map Endpoint.replyData

namespace Endpoint

/-- A batch that ends offers and polls, or does nothing. -/
theorem exists_does_batch? {e : Endpoint} {fragments : List Octets} {address : UInt64}
    {opcode : Request.Opcode} {tag : UInt8} {s : Step (Except Error Outcome)}
    (h : e.batch? fragments address opcode tag = some s) :
    ∃ sends k, e.Does sends (awaitedBy tag opcode) k s := by
  rcases batch?_cases h with ⟨cause, -, rfl⟩ | ⟨-, answer, hanswer, rfl⟩
  · exact ⟨[], 0, e.does_nothing _ _⟩
  · obtain ⟨k, hdoes⟩ := exists_does_answered hanswer address
    exact ⟨_, k, hdoes⟩

/-- A read answers exactly if its fragments fit into buffers and the batch of them does, and
then as that batch. -/
theorem read?_eq_some_iff {e : Endpoint} {address : UInt64} {length count : ℕ} {tag : UInt8}
    {s : Step (Except Error Outcome)} :
    e.read? address length count tag = some s ↔
      RequestsFit length count ∧ e.batch? (requests length count) address .read tag = some s := by
  by_cases hfits : RequestsFit length count
  · rw [e.read?_eq_batch? address tag hfits, and_iff_right hfits]
  · simp [read?_eq_none hfits, hfits]

theorem sendable_of_mem_requests {length : ℕ} (hlength : 1 ≤ length ∧ length ≤ Request.maxPayload)
    (count : ℕ) : ∀ f ∈ requests length count, Sendable f := by
  intro f hmem
  rw [List.eq_of_mem_replicate hmem, Sendable, List.length_replicate]
  exact hlength

/-- **A read of a length that frames carry is a batch of equal fragments:** where the replies
fit into a buffer, so do the fragments. -/
theorem read?_eq_batch?_of_sendable {length : ℕ}
    (hlength : 1 ≤ length ∧ length ≤ Request.maxPayload) (e : Endpoint) (address : UInt64)
    (count : ℕ) (tag : UInt8) :
    e.read? address length count tag = e.batch? (requests length count) address .read tag := by
  by_cases hfits : RequestsFit length count
  · exact e.read?_eq_batch? address tag hfits
  · rw [read?_eq_none hfits, eq_comm,
      e.batch?_eq_none_iff (sendable_of_mem_requests hlength count), requests,
      List.length_replicate]
    refine ⟨rfl, Nat.le_of_not_lt fun hreplies => hfits ?_⟩
    have hreplies : Buffer.Fits count Request.maxPayload := fits_replies_iff.2 hreplies
    refine ⟨Buffer.Fits.of_le hlength.2 (by decide), ?_, ?_⟩
    · exact (Nat.mul_le_mul_left count (by decide)).trans hreplies
    · exact (Nat.mul_le_mul_left count hlength.2).trans hreplies

end Endpoint

/-- An operation comes down to a batch of fragments.  A read does if its fragments fit into
buffers. -/
inductive Operation.Sends :
    Operation → List Octets → UInt64 → Request.Opcode → UInt8 → Prop
  | batch (fragments : List Octets) (address : UInt64) (opcode : Request.Opcode) (tag : UInt8) :
    Sends (.batch fragments address opcode tag) fragments address opcode tag
  | write (fragments : List Octets) (address : UInt64) (tag : UInt8) :
    Sends (.write fragments address tag) fragments address .write tag
  | read (address : UInt64) {length count : ℕ} (tag : UInt8) :
    Endpoint.RequestsFit length count →
    Sends (.read address length count tag) (Endpoint.requests length count) address .read tag

theorem Operation.Sends.awaited_eq {op : Operation} {fragments : List Octets} {address : UInt64}
    {opcode : Request.Opcode} {tag : UInt8} (h : op.Sends fragments address opcode tag) :
    op.awaited = Endpoint.awaitedBy tag opcode := by
  cases h <;> rfl

namespace Endpoint

/-- What an endpoint does for an operation that it answers. -/
inductive Performs (e : Endpoint) : Operation → Step Answer → Prop
  | batch {op : Operation} {fragments : List Octets} {address : UInt64} {opcode : Request.Opcode}
    {tag : UInt8} {t : Step (Except Error Outcome)} :
    op.Sends fragments address opcode tag → e.batch? fragments address opcode tag = some t →
    Performs e op (t.map .outcome)
  | waitAck (timeout : ℕ) (tag : UInt8) :
    Performs e (.waitAck timeout tag) ((e.waitAck timeout tag).map .acked)
  | waitRead (timeout expected : ℕ) (tag : UInt8) :
    Performs e (.waitRead timeout expected tag) ((e.gather timeout expected tag).map .replies)
  | sendAck (address : UInt64) (tag : UInt8) :
    Performs e (.sendAck address tag)
      (((e.send (e.frame address [0] e.settings.ackOpcode tag)).map .ok).map .ackSent)
  | sendRaw (frame : Octets) : Performs e (.sendRaw frame) ((e.send frame).map .rawSent)

/-- **An answer is what the endpoint performs.** -/
theorem performs_of_perform? {e : Endpoint} {op : Operation} {s : Step Answer}
    (h : e.perform? op = some s) : e.Performs op s := by
  cases op with
  | batch fragments address opcode tag =>
    obtain ⟨t, ht, rfl⟩ := Option.map_eq_some_iff.1 h
    exact .batch (.batch fragments address opcode tag) ht
  | write fragments address tag =>
    obtain ⟨t, ht, rfl⟩ := Option.map_eq_some_iff.1 h
    exact .batch (.write fragments address tag) ht
  | read address length count tag =>
    obtain ⟨t, ht, rfl⟩ := Option.map_eq_some_iff.1 h
    obtain ⟨hfits, ht⟩ := read?_eq_some_iff.1 ht
    exact .batch (.read address tag hfits) ht
  | waitAck timeout tag =>
    obtain rfl := Option.some.inj h
    exact .waitAck timeout tag
  | waitRead timeout expected tag =>
    obtain ⟨t, ht, rfl⟩ := Option.map_eq_some_iff.1 h
    obtain ⟨-, rfl⟩ := waitRead?_eq_some_iff.1 ht
    exact .waitRead timeout expected tag
  | sendAck address tag =>
    obtain rfl := Option.some.inj h
    rw [sendAck, frameFor_eq_ok (by decide)]
    exact .sendAck address tag
  | sendRaw frame =>
    obtain rfl := Option.some.inj h
    exact .sendRaw frame

/-- **Every operation offers frames and then polls** for what it awaits. -/
theorem exists_does_of_perform? {e : Endpoint} {op : Operation} {s : Step Answer}
    (h : e.perform? op = some s) : ∃ sends k, e.Does sends op.awaited k s := by
  cases performs_of_perform? h with
  | batch hsends ht =>
    obtain ⟨sends, k, hd⟩ := exists_does_batch? ht
    rw [hsends.awaited_eq]
    exact ⟨sends, k, hd.map _⟩
  | waitAck timeout tag =>
    obtain ⟨k, hd⟩ := e.exists_does_waitAck timeout tag
    exact ⟨[], k, hd.map _⟩
  | waitRead timeout expected tag =>
    obtain ⟨k, hd⟩ := e.exists_does_gather timeout expected tag
    exact ⟨[], k, hd.map _⟩
  | sendAck address tag => exact ⟨_, 0, ((e.does_send _).map _).map _⟩
  | sendRaw frame => exact ⟨_, 0, (e.does_send frame).map _⟩

/-- The polls of a wait for one reply end with it, if it comes. -/
theorem MakesPolls.endWithAck {e : Endpoint} {opcode tag : UInt8} {timeout k : ℕ}
    (h : e.MakesPolls opcode tag 1 timeout k) :
    Call.EndWithAck (decide (1 ≤ e.tally opcode tag k)) (e.polls opcode tag k) := by
  unfold Call.EndWithAck
  split_ifs with hcame
  · rw [decide_eq_true_iff] at hcame
    cases k with
    | zero => exact absurd hcame (by simp [tally])
    | succ j =>
      have hbefore := (h.going j (Nat.lt_succ_self j)).1
      have hlast : e.replyAt opcode tag j = true := by
        rw [tally_succ] at hcame
        by_contra hno
        rw [if_neg hno] at hcame
        omega
      obtain ⟨frame, hframe, -⟩ := (Option.any_eq_true _ _).1 hlast
      refine ⟨e.polls opcode tag j, (e.link.arrival j).micros, frame, ?_, ?_⟩
      · rw [polls_succ, hlast, ← hframe]
      · rw [← List.length_eq_zero_iff, length_counted_polls]
        omega
  · rw [decide_eq_true_iff] at hcame
    rw [← List.length_eq_zero_iff, length_counted_polls]
    omega

theorem endWithAck_waitAck (e : Endpoint) (timeout : ℕ) (tag : UInt8) :
    Call.EndWithAck (e.waitAck timeout tag).result (e.waitAck timeout tag).calls := by
  obtain ⟨k, hk, h⟩ := e.waitAck_spec timeout tag
  rw [h]
  exact hk.endWithAck

/-- The answer of a batch accounts for the frames its wait counted. -/
theorem accounts_batch? {e : Endpoint} {fragments : List Octets} {address : UInt64}
    {opcode : Request.Opcode} {tag : UInt8} {s : Step (Except Error Outcome)}
    (h : e.batch? fragments address opcode tag = some s) :
    (awaitedBy tag opcode).Accounts (s.map .outcome) := by
  rcases batch?_cases h with ⟨cause, -, rfl⟩ | ⟨-, answer, hanswer, rfl⟩
  · cases opcode <;> rfl
  · have hsends : Call.counted (e.offers address (e.wireOpcode opcode) tag fragments) = [] :=
      Call.counted_of_sends fun c hc => isSend_of_mem_offers hc
    cases opcode with
    | read =>
      obtain ⟨-, rfl⟩ := waitRead?_eq_some_iff.1 hanswer
      simp only [awaitedBy, Awaited.Accounts, Step.map, answered, Call.counted_append, hsends,
        List.nil_append]
      rfl
    | write =>
      obtain rfl := Option.some.inj hanswer
      exact ((e.afterSending fragments.length).endWithAck_waitAck e.settings.ackTimeout
        tag).append hsends
    | ack =>
      obtain rfl := Option.some.inj hanswer
      simp only [awaitedBy, Awaited.Accounts, Step.map, answered, Call.counted_append, hsends]
      rfl

/-- **Every answer accounts for the frames counted.** -/
theorem accounts_of_perform? {e : Endpoint} {op : Operation} {s : Step Answer}
    (h : e.perform? op = some s) : op.awaited.Accounts s := by
  cases performs_of_perform? h with
  | batch hsends ht =>
    rw [hsends.awaited_eq]
    exact accounts_batch? ht
  | waitAck timeout tag => exact e.endWithAck_waitAck timeout tag
  | waitRead timeout expected tag => rfl
  | sendAck address tag => rfl
  | sendRaw frame => rfl

end Endpoint

end RemoteMemory
