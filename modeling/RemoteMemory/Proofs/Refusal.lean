/-
# Refused operations

`send_batch_wait_ack`, `write` and `read`, `SPEC_FULL.md`, sections 3 and 4.5: "rejected [...]
before anything is sent".

A batch is refused for its fragments alone: the first that is empty or too long for a frame
is the cause (`result_eq_error_iff`), and then nothing was offered or polled and the
endpoint is the one that was asked (`batch?_eq_of_cause`).  Once a batch has passed that
look at its fragments, every frame of it can be built (`exists_frameFor`), so it does not
fail half-way.  `Endpoint.Screens` says this of an answer, and holds of batches, writes and
reads (`refused_before_sending`).

Where a buffer would be too long there is neither a refusal nor an outcome: a read makes
its fragments before it looks at them, and the replies to one are gathered in a buffer.

No other operation is refused.  Hence whether an operation is refused does not depend on
the endpoint (`error?_of_perform?`), and a run comes to the same without the
operations that are (`run_filter`).
-/

import Mathlib
import RemoteMemory.Proofs.Operation

namespace RemoteMemory

namespace Endpoint

/-! ### The fragment at fault -/

theorem fragmentError?_eq_some_iff {fragment : Octets} {cause : Error} :
    fragmentError? fragment = some cause ↔
      fragment.length = 0 ∧ cause = .emptyPayload ∨
        226 < fragment.length ∧ cause = .payloadTooLarge fragment.length 226 := by
  have hmax : Request.maxPayload = 226 := rfl
  unfold fragmentError? lengthError?
  rw [hmax]
  split_ifs with h0 h1
  · simp [h0, eq_comm]
  · simp [h0, h1, eq_comm]
  · simp [h0, h1]

/-- The first fragment at fault is the one reported. -/
theorem findSome?_fragmentError?_eq_some_iff {fragments : List Octets} {cause : Error} :
    fragments.findSome? fragmentError? = some cause ↔
      ∃ before f after, fragments = before ++ f :: after ∧ (∀ g ∈ before, Sendable g) ∧
        fragmentError? f = some cause := by
  rw [List.findSome?_eq_some_iff]
  constructor
  · rintro ⟨before, f, after, hsplit, hf, hbefore⟩
    exact ⟨before, f, after, hsplit, fun g hg => fragmentError?_eq_none_iff.1 (hbefore g hg), hf⟩
  · rintro ⟨before, f, after, hsplit, hbefore, hf⟩
    exact ⟨before, f, after, hsplit, hf, fun g hg => fragmentError?_eq_none_iff.2 (hbefore g hg)⟩

/-- A fragment is at fault exactly if it is empty or longer than a payload may be. -/
theorem exists_cause_iff {fragments : List Octets} :
    (∃ cause, fragments.findSome? fragmentError? = some cause) ↔
      ∃ f ∈ fragments, f.length = 0 ∨ 226 < f.length := by
  constructor
  · rintro ⟨cause, h⟩
    obtain ⟨before, f, after, rfl, -, hf⟩ := findSome?_fragmentError?_eq_some_iff.1 h
    refine ⟨f, by simp, ?_⟩
    rcases fragmentError?_eq_some_iff.1 hf with ⟨hempty, -⟩ | ⟨hlong, -⟩
    · exact .inl hempty
    · exact .inr hlong
  · rintro ⟨f, hmem, hbad⟩
    rw [← Option.ne_none_iff_exists']
    intro hnone
    obtain ⟨hpos, hle⟩ := findSome?_fragmentError?_eq_none_iff.1 hnone f hmem
    change f.length ≤ 226 at hle
    omega

/-- **A batch is refused for its fragments alone.** -/
theorem result_eq_error_iff {e : Endpoint} {fragments : List Octets} {address : UInt64}
    {opcode : Request.Opcode} {tag : UInt8} {s : Step (Except Error Outcome)} {cause : Error}
    (h : e.batch? fragments address opcode tag = some s) :
    s.result = .error cause ↔ fragments.findSome? fragmentError? = some cause := by
  rcases batch?_cases h with ⟨found, hfound, rfl⟩ | ⟨hf, answer, -, rfl⟩
  · rw [hfound]
    simp
  · rw [findSome?_fragmentError?_eq_none_iff.2 hf]
    simp [answered]

/-- However far a batch has come, the frame of its next fragment can be built. -/
theorem exists_frameFor {fragments : List Octets} (hf : ∀ f ∈ fragments, Sendable f)
    {before after : List Octets} {f : Octets} (hsplit : fragments = before ++ f :: after)
    (e : Endpoint) (address : UInt64) (opcode tag : UInt8) :
    ∃ frame, (transmit address opcode tag e before).endpoint.frameFor address f opcode tag =
      .ok frame := by
  have hmem : f ∈ fragments := by simp [hsplit]
  exact ⟨_, frameFor_eq_ok (hf f hmem).2 ..⟩

/-! ### Batches, writes and reads -/

/-- An endpoint screens fragments: it answers with a cause exactly if one of them is empty or
longer than 226 octets, for the first that is, and then it has done nothing. -/
structure Screens (e : Endpoint) (fragments : List Octets)
    (answer : Option (Step (Except Error Outcome))) : Prop where
  refused_iff : (∃ s cause, answer = some s ∧ s.result = .error cause) ↔
    ∃ f ∈ fragments, f.length = 0 ∨ 226 < f.length
  first : ∀ s cause, answer = some s → s.result = .error cause →
    ∃ before f after, fragments = before ++ f :: after ∧
      (∀ g ∈ before, 1 ≤ g.length ∧ g.length ≤ 226) ∧
      (f.length = 0 ∧ cause = .emptyPayload ∨
        226 < f.length ∧ cause = .payloadTooLarge f.length 226)
  untouched : ∀ s cause, answer = some s → s.result = .error cause →
    s.endpoint = e ∧ s.calls = []

theorem screens_batch? (e : Endpoint) (fragments : List Octets) (address : UInt64)
    (opcode : Request.Opcode) (tag : UInt8) :
    e.Screens fragments (e.batch? fragments address opcode tag) := by
  constructor
  case refused_iff =>
    rw [← exists_cause_iff]
    constructor
    · rintro ⟨s, cause, hs, hcause⟩
      exact ⟨cause, (result_eq_error_iff hs).1 hcause⟩
    · rintro ⟨cause, hcause⟩
      exact ⟨_, cause, batch?_eq_of_cause hcause e address opcode tag, rfl⟩
  case first =>
    intro s cause hs hcause
    obtain ⟨before, f, after, hsplit, hbefore, hf⟩ :=
      findSome?_fragmentError?_eq_some_iff.1 ((result_eq_error_iff hs).1 hcause)
    exact ⟨before, f, after, hsplit, hbefore, fragmentError?_eq_some_iff.1 hf⟩
  case untouched =>
    intro s cause hs hcause
    rw [batch?_eq_of_cause ((result_eq_error_iff hs).1 hcause)] at hs
    obtain rfl := Option.some.inj hs
    exact ⟨rfl, rfl⟩

/-- **A batch that is not refused has an outcome,** or is a read of so many fragments that no
buffer holds the replies. -/
theorem exists_outcome_or_none (e : Endpoint) {fragments : List Octets}
    (hf : ∀ f ∈ fragments, Sendable f) (address : UInt64) (opcode : Request.Opcode)
    (tag : UInt8) :
    if opcode = .read ∧ 2 ^ 63 ≤ 226 * fragments.length then
      e.batch? fragments address opcode tag = none
    else
      ∃ s outcome, e.batch? fragments address opcode tag = some s ∧ s.result = .ok outcome := by
  split_ifs with hlong
  · exact (e.batch?_eq_none_iff hf address opcode tag).2 hlong
  · obtain ⟨s, hs⟩ := Option.ne_none_iff_exists'.1
      (mt (e.batch?_eq_none_iff hf address opcode tag).1 hlong)
    obtain ⟨outcome, hresult, -⟩ := exists_outcome_of_batch? hf hs
    exact ⟨s, outcome, hs, hresult⟩

/-- Lengths and counts of a read whose fragments fit into buffers. -/
theorem requestsFit_iff {length count : ℕ} :
    RequestsFit length count ↔
      length < 2 ^ 63 ∧ 24 * count < 2 ^ 63 ∧ length * count < 2 ^ 63 := by
  unfold RequestsFit Buffer.Fits Buffer.maxSize fragmentRecordSize
  rw [Nat.mul_comm count length]
  omega

/-- **Refused before anything is sent.**  Batches and writes screen their fragments, in any
state of the endpoint and whatever is asked, and so does a read whose `count` fragments of
`length` octets fit into buffers; a longer read has no answer.

Where no fragment is at fault, no frame fails to be built after the batch has begun to send.
A write has an outcome then, and so has a batch and a read, unless it is a read of so many
fragments that no buffer holds the replies: that has no answer. -/
theorem refused_before_sending (e : Endpoint) (fragments : List Octets) (address : UInt64)
    (opcode : Request.Opcode) (tag : UInt8) (length count : ℕ) :
    e.Screens fragments (e.batch? fragments address opcode tag) ∧
    e.Screens fragments (e.write? fragments address tag) ∧
    (if length < 2 ^ 63 ∧ 24 * count < 2 ^ 63 ∧ length * count < 2 ^ 63 then
      e.Screens (List.replicate count (List.replicate length 0))
        (e.read? address length count tag)
    else e.read? address length count tag = none) ∧
    ((∀ f ∈ fragments, 1 ≤ f.length ∧ f.length ≤ 226) →
      (if opcode = .read ∧ 2 ^ 63 ≤ 226 * fragments.length then
        e.batch? fragments address opcode tag = none
      else
        ∃ s outcome, e.batch? fragments address opcode tag = some s ∧ s.result = .ok outcome) ∧
      (∃ s outcome, e.write? fragments address tag = some s ∧ s.result = .ok outcome) ∧
      ∀ before f after, fragments = before ++ f :: after →
        ∃ frame, (transmit address (e.wireOpcode opcode) tag (e.enter .sending)
          before).endpoint.frameFor address f (e.wireOpcode opcode) tag = .ok frame) ∧
    (1 ≤ length ∧ length ≤ 226 →
      if 226 * count < 2 ^ 63 then
        ∃ s outcome, e.read? address length count tag = some s ∧ s.result = .ok outcome
      else e.read? address length count tag = none) := by
  refine ⟨e.screens_batch? .., e.screens_batch? .., ?_, fun hf => ⟨?_, ?_, ?_⟩, fun hlength => ?_⟩
  · split_ifs with hfits
    · rw [e.read?_eq_batch? address tag (requestsFit_iff.2 hfits)]
      exact e.screens_batch? ..
    · exact read?_eq_none (mt requestsFit_iff.1 hfits) e address tag
  · exact e.exists_outcome_or_none hf address opcode tag
  · have hwrite := e.exists_outcome_or_none hf address .write tag
    rw [if_neg (by simp)] at hwrite
    exact hwrite
  · intro before f after hsplit
    exact exists_frameFor hf hsplit ..
  · have hread := e.exists_outcome_or_none (sendable_of_mem_requests hlength count) address .read
      tag
    rw [← e.read?_eq_batch?_of_sendable hlength, requests, List.length_replicate] at hread
    split_ifs with hfits
    · rw [if_neg (by omega)] at hread
      exact hread
    · rw [if_pos ⟨rfl, by omega⟩] at hread
      exact hread

/-- A batch of which the second fragment is too long and the third empty, a read of empty
fragments, and a batch, a write and a read that go out. -/
theorem refused_before_sending_second_too_long :
    let e : Endpoint :=
      { settings := { dstMac := "02:00:00:00:00:02" }
        mac := .zero
        peer := ⟨2, 0, 0, 0, 0, 2⟩
        link := {} }
    (∃ s, e.batch? [[1, 2, 3, 4], List.replicate 227 0, []] 0x2000 .write 0x10 = some s ∧
      s.result = .error (.payloadTooLarge 227 226) ∧ s.endpoint = e ∧ s.calls = []) ∧
    (∃ s cause, e.read? 0x2000 0 3 0x10 = some s ∧ s.result = .error cause) ∧
    (∀ f ∈ [[0xAA]], 1 ≤ (f : Octets).length ∧ f.length ≤ 226) ∧
    (∃ s outcome, e.batch? [[0xAA]] 0x2000 .ack 0x10 = some s ∧ s.result = .ok outcome) ∧
    (∃ s outcome, e.write? [[0xAA]] 0x2000 0x10 = some s ∧ s.result = .ok outcome) ∧
    (1 ≤ 8 ∧ 8 ≤ 226) ∧
    ∃ s outcome, e.read? 0x2000 8 3 0x10 = some s ∧ s.result = .ok outcome := by
  intro e
  have hf : ∀ f ∈ [[0xAA]], 1 ≤ (f : Octets).length ∧ f.length ≤ 226 := by decide
  obtain ⟨hbatch, -, hread, -⟩ := refused_before_sending e
    [[1, 2, 3, 4], List.replicate 227 0, []] 0x2000 .write 0x10 0 3
  obtain ⟨-, -, -, hsent, hreads⟩ := refused_before_sending e [[0xAA]] 0x2000 .ack 0x10 8 3
  obtain ⟨hack, hwrite, -⟩ := hsent hf
  have hcause : ([[1, 2, 3, 4], List.replicate 227 0, []] : List Octets).findSome?
      fragmentError? = some (.payloadTooLarge 227 226) := by
    rw [findSome?_fragmentError?_eq_some_iff]
    refine ⟨[[1, 2, 3, 4]], List.replicate 227 0, [[]], rfl, by simp [Sendable, Request.maxPayload],
      ?_⟩
    rw [fragmentError?_eq_some_iff, List.length_replicate]
    exact .inr ⟨by decide, rfl⟩
  have hs := batch?_eq_of_cause hcause e 0x2000 .write 0x10
  obtain ⟨hend, hcalls⟩ := hbatch.untouched _ _ hs rfl
  rw [if_pos (by decide)] at hread
  rw [if_neg (by decide)] at hack
  have hreads := hreads ⟨by decide, by decide⟩
  rw [if_pos (by decide)] at hreads
  exact ⟨⟨_, hs, rfl, hend, hcalls⟩, hread.refused_iff.2 ⟨[], by decide, .inl rfl⟩, hf, hack,
    hwrite, ⟨by decide, by decide⟩, hreads⟩

/-- A read longer than any buffer is not refused: it has no answer. -/
theorem read?_longer_than_any_buffer :
    let e : Endpoint :=
      { settings := { dstMac := "02:00:00:00:00:02" }
        mac := .zero
        peer := ⟨2, 0, 0, 0, 0, 2⟩
        link := {} }
    226 < 2 ^ 63 ∧ ¬ ∃ s, e.read? 0x2000 (2 ^ 63) 1 0x10 = some s ∧
      s.result = .error (.payloadTooLarge (2 ^ 63) 226) := by
  refine ⟨by decide, ?_⟩
  rintro ⟨s, hs, -⟩
  obtain ⟨hfits, -⟩ := read?_eq_some_iff.1 hs
  exact absurd (requestsFit_iff.1 hfits).1 (by decide)

end Endpoint

/-! ### Any operation -/

/-- Why an operation is refused, whatever endpoint is asked. -/
def Operation.cause? : Operation → Option Error
  | .batch fragments _ _ _ => fragments.findSome? Endpoint.fragmentError?
  | .write fragments _ _ => fragments.findSome? Endpoint.fragmentError?
  | .read _ length count _ =>
    if length < 2 ^ 63 ∧ 24 * count < 2 ^ 63 ∧ length * count < 2 ^ 63 ∧ count ≠ 0 then
      Endpoint.lengthError? length
    else none
  | _ => none

/-- The cause that an answer reports. -/
def Answer.error? : Answer → Option Error
  | .outcome (.error cause) => some cause
  | .ackSent (.error cause) => some cause
  | _ => none

namespace Endpoint

/-- A batch of equal fragments is refused for any of them. -/
theorem findSome?_fragmentError?_requests (length count : ℕ) :
    (requests length count).findSome? fragmentError? =
      if count = 0 then none else lengthError? length := by
  rw [requests, List.findSome?_replicate, fragmentError?, List.length_replicate]

theorem error?_of_batch? {e : Endpoint} {fragments : List Octets} {address : UInt64}
    {opcode : Request.Opcode} {tag : UInt8} {s : Step (Except Error Outcome)}
    (h : e.batch? fragments address opcode tag = some s) :
    (Answer.outcome s.result).error? = fragments.findSome? fragmentError? := by
  ext cause
  rw [← result_eq_error_iff h]
  cases h : s.result <;> simp [Answer.error?]

/-- **A refused operation is answered with its cause and does nothing else.** -/
theorem perform?_eq_of_cause {op : Operation} {cause : Error} (h : op.cause? = some cause)
    (e : Endpoint) :
    e.perform? op = some { result := .outcome (.error cause), endpoint := e, calls := [] } := by
  cases op with
  | batch fragments address opcode tag =>
    rw [perform?, batch?_eq_of_cause h]
    rfl
  | write fragments address tag =>
    rw [perform?, write?, batch?_eq_of_cause h]
    rfl
  | read address length count tag =>
    rw [Operation.cause?] at h
    split_ifs at h with hread
    obtain ⟨hlength, hlist, hall, hsome⟩ := hread
    have hfirst := findSome?_fragmentError?_requests length count
    rw [if_neg hsome, h] at hfirst
    rw [perform?, e.read?_eq_batch? address tag (requestsFit_iff.2 ⟨hlength, hlist, hall⟩),
      batch?_eq_of_cause hfirst]
    rfl
  | _ => cases h

/-- A batch is refused for the cause that the operation it is sent for has. -/
theorem cause?_of_sends {op : Operation} {fragments : List Octets} {address : UInt64}
    {opcode : Request.Opcode} {tag : UInt8} (h : op.Sends fragments address opcode tag) :
    op.cause? = fragments.findSome? fragmentError? := by
  cases h with
  | batch => rfl
  | write => rfl
  | read address tag hfits =>
    obtain ⟨hlength, hlist, hall⟩ := requestsFit_iff.1 hfits
    rw [findSome?_fragmentError?_requests, Operation.cause?]
    simp only [hlength, hlist, hall, true_and, ite_not]

/-- **Whether an operation is refused does not depend on the endpoint.** -/
theorem error?_of_perform? {e : Endpoint} {op : Operation} {s : Step Answer}
    (h : e.perform? op = some s) : s.result.error? = op.cause? := by
  cases performs_of_perform? h with
  | batch hsends ht => exact (error?_of_batch? ht).trans (cause?_of_sends hsends).symm
  | _ => rfl

/-- **A run comes to the same without the operations that are refused.** -/
theorem run_filter (e : Endpoint) (ops : List Operation) :
    e.run (ops.filter (·.cause?.isNone)) = (e.run ops).filter (·.result.error?.isNone) := by
  induction ops generalizing e with
  | nil => rfl
  | cons op ops ih =>
    cases hc : op.cause? with
    | some cause =>
      rw [List.filter_cons_of_neg (by simp [hc]), ih, run, perform?_eq_of_cause hc]
      exact (List.filter_cons_of_neg (by simp [Answer.error?])).symm
    | none =>
      rw [List.filter_cons_of_pos (by simp [hc]), run, run]
      cases hop : e.perform? op with
      | none => rfl
      | some s =>
        have herror := (error?_of_perform? hop).trans hc
        simp only [ih]
        exact (List.filter_cons_of_pos (by simp [herror])).symm

end Endpoint

end RemoteMemory
