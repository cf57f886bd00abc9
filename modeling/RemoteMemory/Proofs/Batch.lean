/-
# What a batch puts on the wire

`send_batch_wait_ack`, `SPEC_FULL.md`, section 4.5: "best-effort send, no early abort".

A batch of fragments that frames carry is never refused and never ends early: it offers
one frame per fragment, in order, whatever the link says to each (`dispatch_eq`), and only
then polls, if the wait for its answer has one (`batch?_eq`).  The frames do not depend on
the link at all, and each conveys its fragment (`batch_puts_on_wire`).

Which of the frames are taken is the link's say: `Link.verdicts` are its answers to the
next frames, and a batch counts them.

What a batch comes to, whatever its fragments, is said once: it is refused and does
nothing, or it goes out and ends as its wait does (`batch?_cases`).
-/

import Mathlib
import RemoteMemory.Endpoint.Batch
import RemoteMemory.Proofs.Frame
import RemoteMemory.Proofs.Step

namespace RemoteMemory

namespace Link

/-- What the link says to the next `n` frames it is offered. -/
def verdicts (l : Link) : ℕ → List Bool
  | 0 => []
  | n + 1 => l.offer.1 :: l.offer.2.verdicts n

/-- The link after `n` offers. -/
def afterOffers (l : Link) (n : ℕ) : Link := { l with answers := l.answers.drop n }

@[simp] theorem length_verdicts (l : Link) (n : ℕ) : (l.verdicts n).length = n := by
  induction n generalizing l with
  | zero => rfl
  | succ n ih => simp [verdicts, ih]

/-- What a link says to a frame does not depend on what it delivers. -/
theorem offer_fst_congr {l l' : Link} (h : l'.answers = l.answers) : l'.offer.1 = l.offer.1 := by
  rw [offer, offer, h]
  cases l.answers <;> rfl

theorem offer_snd (l : Link) : l.offer.2 = l.afterOffers 1 := by
  obtain ⟨pending, answers, idle⟩ := l
  cases answers <;> rfl

theorem verdicts_congr {l l' : Link} (h : l'.answers = l.answers) (n : ℕ) :
    l'.verdicts n = l.verdicts n := by
  induction n generalizing l l' with
  | zero => rfl
  | succ n ih =>
    have hrest : l'.offer.2.answers = l.offer.2.answers := by
      rw [offer_snd, offer_snd, afterOffers, afterOffers, h]
    rw [verdicts, verdicts, offer_fst_congr h, ih hrest]

theorem afterOffers_offer (l : Link) (n : ℕ) : l.offer.2.afterOffers n = l.afterOffers (n + 1) := by
  rw [offer_snd]
  simp [afterOffers]

end Link

namespace Endpoint

/-- A fragment that a frame carries: not empty, and no longer than a frame's payload. -/
def Sendable (fragment : Octets) : Prop :=
  1 ≤ fragment.length ∧ fragment.length ≤ Request.maxPayload

theorem fragmentError?_eq_none_iff {fragment : Octets} :
    fragmentError? fragment = none ↔ Sendable fragment := by
  unfold fragmentError? lengthError? Sendable
  split_ifs with h0 h1
  · simp [h0]
  · simp; omega
  · simp; omega

theorem findSome?_fragmentError?_eq_none_iff {fragments : List Octets} :
    fragments.findSome? fragmentError? = none ↔ ∀ f ∈ fragments, Sendable f := by
  simp only [List.findSome?_eq_none_iff, fragmentError?_eq_none_iff]

/-- The endpoint after it offered `n` frames. -/
def afterOffers (e : Endpoint) (n : ℕ) : Endpoint := { e with link := e.link.afterOffers n }

/-- The calls that offer a frame for each fragment, with what the link says. -/
def offers (e : Endpoint) (address : UInt64) (opcode tag : UInt8) (fragments : List Octets) :
    List Call :=
  List.zipWith Call.send (fragments.map fun f => e.frame address f opcode tag)
    (e.link.verdicts fragments.length)

/-- **Every fragment is offered once, in order,** whatever the link says to the others. -/
theorem transmit_eq (address : UInt64) (opcode tag : UInt8) (e : Endpoint) {fragments : List Octets}
    (hf : ∀ f ∈ fragments, Sendable f) :
    transmit address opcode tag e fragments =
      { result := .ok
          { sent := (e.link.verdicts fragments.length).count true
            refused := (e.link.verdicts fragments.length).count false }
        endpoint := e.afterOffers fragments.length
        calls := e.offers address opcode tag fragments } := by
  induction fragments generalizing e with
  | nil => rfl
  | cons fragment rest ih =>
    have hfirst := hf fragment List.mem_cons_self
    have hrest := ih { e with link := e.link.offer.2 } fun f h => hf f (List.mem_cons_of_mem _ h)
    have hend : ({ e with link := e.link.offer.2 } : Endpoint).afterOffers rest.length =
        e.afterOffers (rest.length + 1) := by
      simp only [afterOffers, Link.afterOffers_offer]
    rw [transmit, frameFor_eq_ok hfirst.2]
    simp only [send, Step.andThen, Step.map, hrest, hend, Except.map]
    cases hv : e.link.offer.1 <;> simp [offers, Link.verdicts, Dispatch.add, hv]

/-- **The frames of a batch go out,** if its fragments are ones that frames carry. -/
theorem dispatch_eq (e : Endpoint) {fragments : List Octets} (hf : ∀ f ∈ fragments, Sendable f)
    (address : UInt64) (opcode : Request.Opcode) (tag : UInt8) :
    e.dispatch fragments address opcode tag =
      { result := .ok
          { sent := (e.link.verdicts fragments.length).count true
            refused := (e.link.verdicts fragments.length).count false }
        endpoint := (e.enter .sending).afterOffers fragments.length
        calls := e.offers address (e.wireOpcode opcode) tag fragments } := by
  unfold dispatch
  rw [findSome?_fragmentError?_eq_none_iff.2 hf]
  exact transmit_eq address (e.wireOpcode opcode) tag (e.enter .sending) hf

/-- The endpoint that waits for the answer to a batch of `n` fragments. -/
def afterSending (e : Endpoint) (n : ℕ) : Endpoint := (e.enter .sending).afterOffers n

/-- What a batch that went out comes to with an answer. -/
def answered (e : Endpoint) (fragments : List Octets) (address : UInt64) (opcode : Request.Opcode)
    (tag : UInt8) (answer : Step ReadResult) : Step (Except Error Outcome) :=
  { result := .ok
      { completed := answer.result.completed
        responses := answer.result.responses
        framesSent := (e.link.verdicts fragments.length).count true
        sendFailures := (e.link.verdicts fragments.length).count false }
    endpoint := answer.endpoint
    calls := e.offers address (e.wireOpcode opcode) tag fragments ++ answer.calls }

/-- **A batch of fragments that frames carry** is its offers and then its wait. -/
theorem batch?_eq (e : Endpoint) {fragments : List Octets} (hf : ∀ f ∈ fragments, Sendable f)
    (address : UInt64) (opcode : Request.Opcode) (tag : UInt8) :
    e.batch? fragments address opcode tag =
      ((e.afterSending fragments.length).awaitAnswer? opcode fragments.length tag).map
        (e.answered fragments address opcode tag) := by
  unfold batch?
  rw [e.dispatch_eq hf]
  rfl

/-- **A batch is refused and does nothing, or goes out and ends as its wait does.** -/
theorem batch?_cases {e : Endpoint} {fragments : List Octets} {address : UInt64}
    {opcode : Request.Opcode} {tag : UInt8} {s : Step (Except Error Outcome)}
    (h : e.batch? fragments address opcode tag = some s) :
    (∃ cause, fragments.findSome? fragmentError? = some cause ∧
      s = { result := .error cause, endpoint := e, calls := [] }) ∨
    (∀ f ∈ fragments, Sendable f) ∧ ∃ answer,
      (e.afterSending fragments.length).awaitAnswer? opcode fragments.length tag = some answer ∧
      s = e.answered fragments address opcode tag answer := by
  cases hcause : fragments.findSome? fragmentError? with
  | some cause =>
    rw [batch?_eq_of_cause hcause] at h
    exact .inl ⟨cause, rfl, (Option.some.inj h).symm⟩
  | none =>
    have hf := findSome?_fragmentError?_eq_none_iff.1 hcause
    rw [e.batch?_eq hf] at h
    obtain ⟨answer, hanswer, rfl⟩ := Option.map_eq_some_iff.1 h
    exact .inr ⟨hf, answer, hanswer, rfl⟩

/-- What a batch of an operation waits for. -/
def awaitedBy (tag : UInt8) : Request.Opcode → Awaited
  | .read => .replies tag
  | .write => .ack tag
  | .ack => .nothing

/-- **Only a read may be left without an answer:** if its replies do not fit into a
buffer. -/
theorem isSome_awaitAnswer?_iff {e : Endpoint} {opcode : Request.Opcode} {fragments : ℕ}
    {tag : UInt8} :
    (e.awaitAnswer? opcode fragments tag).isSome = true ↔
      (opcode = .read → Buffer.Fits fragments Request.maxPayload) := by
  cases opcode with
  | read =>
    rw [awaitAnswer?, waitRead?]
    split_ifs with hfits
    · simp [hfits]
    · simp [hfits]
  | write => simp [awaitAnswer?]
  | ack => simp [awaitAnswer?]

theorem exists_does_awaitAnswer? {e : Endpoint} {opcode : Request.Opcode} {fragments : ℕ}
    {tag : UInt8} {s : Step ReadResult} (h : e.awaitAnswer? opcode fragments tag = some s) :
    ∃ k, e.Does [] (awaitedBy tag opcode) k s := by
  cases opcode with
  | read =>
    obtain ⟨-, rfl⟩ := waitRead?_eq_some_iff.1 h
    exact e.exists_does_gather e.settings.readTimeout fragments tag
  | write =>
    obtain rfl := Option.some.inj h
    obtain ⟨k, hdoes⟩ := e.exists_does_waitAck e.settings.ackTimeout tag
    exact ⟨k, hdoes.map fun completed => (⟨completed, []⟩ : ReadResult)⟩
  | ack =>
    obtain rfl := Option.some.inj h
    exact ⟨0, by simp, rfl, ⟨e.link.answers, .completed, rfl⟩, fun _ => rfl⟩

end Endpoint

namespace Call

/-- Frames offered with one answer each are the frames offered. -/
theorem offered_zipWith_send {frames : List Octets} {answers : List Bool}
    (h : frames.length = answers.length) :
    offered (List.zipWith Call.send frames answers) = frames := by
  induction frames generalizing answers with
  | nil => rfl
  | cons f frames ih =>
    cases answers with
    | nil => cases h
    | cons b answers =>
      have hrest := ih (Nat.succ.inj h)
      rw [offered] at hrest ⊢
      simp [hrest]

/-- As many frames are taken as there are answers that say so. -/
theorem length_taken_zipWith_send {frames : List Octets} {answers : List Bool}
    (h : frames.length = answers.length) :
    (taken (List.zipWith Call.send frames answers)).length = answers.count true := by
  induction frames generalizing answers with
  | nil =>
    cases answers with
    | nil => rfl
    | cons b answers => cases h
  | cons f frames ih =>
    cases answers with
    | nil => cases h
    | cons b answers =>
      have hrest := ih (Nat.succ.inj h)
      rw [taken] at hrest ⊢
      cases b <;> simp [hrest]

end Call

namespace Endpoint

theorem isSend_of_mem_offers {e : Endpoint} {address : UInt64} {opcode tag : UInt8}
    {fragments : List Octets} {c : Call} (h : c ∈ e.offers address opcode tag fragments) :
    c.IsSend := by
  rw [offers, ← List.map_uncurry_zip_eq_zipWith] at h
  obtain ⟨⟨frame, taken⟩, -, rfl⟩ := List.mem_map.1 h
  exact ⟨frame, taken, rfl⟩

/-- **A batch that goes out** offers its frames, and then polls for what answers its
operation. -/
theorem exists_does_answered {e : Endpoint} {fragments : List Octets} {opcode : Request.Opcode}
    {tag : UInt8} {answer : Step ReadResult}
    (h : (e.afterSending fragments.length).awaitAnswer? opcode fragments.length tag = some answer)
    (address : UInt64) :
    ∃ k, e.Does (e.offers address (e.wireOpcode opcode) tag fragments) (awaitedBy tag opcode) k
      (e.answered fragments address opcode tag answer) := by
  obtain ⟨k, hdoes⟩ := exists_does_awaitAnswer? h
  obtain ⟨answers, phase, hend⟩ := hdoes.endpoint
  refine ⟨k, fun c hc => isSend_of_mem_offers hc, ?_, ⟨answers, phase, hend⟩, hdoes.idle⟩
  simp only [answered, hdoes.calls, List.nil_append]
  rfl

/-! ### The frames of a batch -/

variable {e : Endpoint} {fragments : List Octets} {address : UInt64} {opcode : Request.Opcode}
  {tag : UInt8}

theorem offered_dispatch (e : Endpoint) (hf : ∀ f ∈ fragments, Sendable f) (address : UInt64)
    (opcode : Request.Opcode) (tag : UInt8) :
    Call.offered (e.dispatch fragments address opcode tag).calls =
      fragments.map fun f => e.frame address f (e.wireOpcode opcode) tag := by
  rw [e.dispatch_eq hf]
  exact Call.offered_zipWith_send (by simp)

/-- What a batch offers are frames for its fragments, also where it is refused and offers
none. -/
theorem exists_of_mem_offered_dispatch {frame : Octets}
    (h : frame ∈ Call.offered (e.dispatch fragments address opcode tag).calls) :
    ∃ f ∈ fragments, frame = e.frame address f (e.wireOpcode opcode) tag := by
  cases hcause : fragments.findSome? fragmentError? with
  | some cause =>
    rw [dispatch, hcause] at h
    cases h
  | none =>
    rw [e.offered_dispatch (findSome?_fragmentError?_eq_none_iff.1 hcause)] at h
    obtain ⟨f, hf, rfl⟩ := List.mem_map.1 h
    exact ⟨f, hf, rfl⟩

/-- **A batch that ends has sent its frames and polled.** -/
theorem exists_calls_batch? {s : Step (Except Error Outcome)}
    (h : e.batch? fragments address opcode tag = some s) :
    ∃ k, s.calls = (e.dispatch fragments address opcode tag).calls ++
      e.pollsFor (awaitedBy tag opcode) k := by
  rcases batch?_cases h with ⟨cause, hcause, rfl⟩ | ⟨hf, answer, hanswer, rfl⟩
  · refine ⟨0, ?_⟩
    rw [dispatch, hcause]
    exact (e.does_nothing (awaitedBy tag opcode) ()).calls
  · obtain ⟨k, hdoes⟩ := exists_does_answered hanswer address
    rw [e.dispatch_eq hf]
    exact ⟨k, hdoes.calls⟩

theorem offered_batch? {s : Step (Except Error Outcome)}
    (h : e.batch? fragments address opcode tag = some s) :
    Call.offered s.calls = Call.offered (e.dispatch fragments address opcode tag).calls := by
  obtain ⟨k, hcalls⟩ := exists_calls_batch? h
  rw [hcalls, Call.offered_append, offered_pollsFor, List.append_nil]

/-- **A batch that goes out has no answer exactly if** it is a read of so many fragments that
no buffer holds the replies. -/
theorem batch?_eq_none_iff (e : Endpoint) (hf : ∀ f ∈ fragments, Sendable f) (address : UInt64)
    (opcode : Request.Opcode) (tag : UInt8) :
    e.batch? fragments address opcode tag = none ↔
      opcode = .read ∧ 2 ^ 63 ≤ 226 * fragments.length := by
  rw [e.batch?_eq hf, Option.map_eq_none_iff, ← Option.not_isSome_iff_eq_none,
    isSome_awaitAnswer?_iff, fits_replies_iff, Classical.not_imp, Nat.not_lt]

/-- **A batch that goes out is not refused:** where it has an answer, that is an outcome. -/
theorem exists_outcome_of_batch? {s : Step (Except Error Outcome)}
    (hf : ∀ f ∈ fragments, Sendable f) (h : e.batch? fragments address opcode tag = some s) :
    ∃ outcome, s.result = .ok outcome ∧
      outcome.framesSent = (e.link.verdicts fragments.length).count true ∧
      outcome.sendFailures = (e.link.verdicts fragments.length).count false := by
  rw [e.batch?_eq hf] at h
  obtain ⟨answer, -, rfl⟩ := Option.map_eq_some_iff.1 h
  exact ⟨_, rfl, rfl, rfl⟩

/-- **What a batch puts on the wire.**  For fragments of 1 to 226 octets a batch always
goes out: it offers one frame per fragment, in order, whatever the link says to each.  The
frames are the same over every link, those that are taken and those that are refused are
counted, and each frame conveys its fragment with the operation octet 1, 2 or the configured
one.  It polls for the first time behind the last offer, and answers the two counts; only a
read of so many fragments that no buffer holds the replies has no answer behind its offers. -/
theorem batch_puts_on_wire (e : Endpoint) (fragments : List Octets) (address : UInt64)
    (opcode : Request.Opcode) (tag : UInt8)
    (hf : ∀ f ∈ fragments, 1 ≤ f.length ∧ f.length ≤ 226) :
    ∃ frames d,
      (e.dispatch fragments address opcode tag).result = .ok d ∧
      (e.dispatch fragments address opcode tag).calls =
        List.zipWith Call.send frames (e.link.verdicts fragments.length) ∧
      (∀ link : Link, Call.offered
        (({ e with link } : Endpoint).dispatch fragments address opcode tag).calls = frames) ∧
      d.sent = (Call.taken (e.dispatch fragments address opcode tag).calls).length ∧
      d.sent + d.refused = fragments.length ∧
      List.Forall₂ (e.Conveys address
        (match opcode with
          | .read => 1
          | .write => 2
          | .ack => e.settings.ackOpcode) tag) fragments frames ∧
      if opcode = .read ∧ 2 ^ 63 ≤ 226 * fragments.length then
        e.batch? fragments address opcode tag = none
      else
        ∃ s outcome polls, e.batch? fragments address opcode tag = some s ∧
          s.result = .ok outcome ∧
          s.calls = (e.dispatch fragments address opcode tag).calls ++ polls ∧
          (∀ c ∈ polls, ∃ arrival counted, c = Call.poll arrival counted) ∧
          outcome.framesSent = d.sent ∧ outcome.sendFailures = d.refused := by
  have hcount := (e.link.verdicts fragments.length).count_not_add_count true
  rw [Link.length_verdicts, Bool.not_true] at hcount
  refine ⟨fragments.map fun f => e.frame address f (e.wireOpcode opcode) tag, _,
    by rw [e.dispatch_eq hf], by rw [e.dispatch_eq hf]; rfl, fun link => ?_, ?_, ?_, ?_, ?_⟩
  · exact offered_dispatch _ hf address opcode tag
  · rw [e.dispatch_eq hf]
    exact (Call.length_taken_zipWith_send (by simp)).symm
  · simp only
    omega
  · have hconveys : List.Forall₂ (e.Conveys address (e.wireOpcode opcode) tag) fragments
        (fragments.map fun f => e.frame address f (e.wireOpcode opcode) tag) := by
      rw [List.forall₂_map_right_iff, List.forall₂_same]
      exact fun f h => e.conveys_frame (hf f h).2 address _ tag
    cases opcode <;> exact hconveys
  · split_ifs with hlong
    · exact (e.batch?_eq_none_iff hf address opcode tag).2 hlong
    · obtain ⟨s, hs⟩ := Option.ne_none_iff_exists'.1
        (mt (e.batch?_eq_none_iff hf address opcode tag).1 hlong)
      obtain ⟨outcome, hresult, hsent, hrefused⟩ := exists_outcome_of_batch? hf hs
      obtain ⟨k, hcalls⟩ := exists_calls_batch? hs
      exact ⟨s, outcome, _, hs, hresult, hcalls, fun c hc => e.exists_of_mem_pollsFor hc, hsent,
        hrefused⟩

/-- Two fragments over a link that refuses the first frame. -/
theorem batch_puts_on_wire_first_refused :
    let e : Endpoint :=
      { settings := { dstMac := "02:00:00:00:00:02" }
        mac := .zero
        peer := ⟨2, 0, 0, 0, 0, 2⟩
        link := { answers := [false] } }
    (∀ f ∈ [[0xAA], [0xBB, 0xCC]], 1 ≤ (f : Octets).length ∧ f.length ≤ 226) ∧
    ∃ first second s outcome polls,
      e.batch? [[0xAA], [0xBB, 0xCC]] 0x2007 .write 0x10 = some s ∧
      s.calls = [.send first false, .send second true] ++ polls ∧
      e.Conveys 0x2007 2 0x10 [0xAA] first ∧ e.Conveys 0x2007 2 0x10 [0xBB, 0xCC] second ∧
      s.result = .ok outcome ∧ outcome.framesSent = 1 ∧ outcome.sendFailures = 1 := by
  intro e
  have hf : ∀ f ∈ [[0xAA], [0xBB, 0xCC]], 1 ≤ (f : Octets).length ∧ f.length ≤ 226 := by decide
  obtain ⟨frames, d, -, hsends, -, hsent, hsum, hconveys, hbatch⟩ :=
    batch_puts_on_wire e [[0xAA], [0xBB, 0xCC]] 0x2007 .write 0x10 hf
  rw [if_neg (by decide)] at hbatch
  obtain ⟨s, outcome, polls, hs, hresult, hcalls, -, hframes, hfailures⟩ := hbatch
  cases hconveys with
  | @cons _ first _ _ hfirst hrest =>
    cases hrest with
    | @cons _ second _ _ hsecond hnil =>
      cases hnil
      rw [hsends] at hcalls hsent
      have hone : d.sent = 1 := hsent
      have htwo : d.sent + d.refused = 2 := hsum
      exact ⟨hf, first, second, s, outcome, polls, hs, hcalls, hfirst, hsecond, hresult,
        hframes.trans hone, by omega⟩

end Endpoint

end RemoteMemory
