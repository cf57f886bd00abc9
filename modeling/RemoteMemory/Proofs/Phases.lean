/-
# The phases an endpoint shows

The states of the orchestrator, `SPEC_FULL.md`, section 4.5: `Idle → Sending → {WaitAck |
WaitRead} → {Completed | TimedOut}`.

Inside an operation an endpoint passes through waiting phases, and between operations it shows
none of them, where idle polls take time: it is idle, or its last transaction is completed or
timed out.  A wait ends completed or timed out, as it reports (`Endpoint.phase_await`); so do
writing and reading batches, and an acknowledging one ends completed though it reports that
nothing came (`Endpoint.phase_awaitAnswer?`).  Whatever is refused, and a frame sent on its own,
leave the phase as it is.  That is what one turn does (`Turn.Settles`,
`Endpoint.settles_of_perform?`).

An operation that needs too long a buffer has no answer, and nothing is said of the phase behind
it: a run ends there (`Operation.fitsBuffers`, `Endpoint.phases_of_run`).

Over a run (`Endpoint.Reaches`) it follows that the phase is idle exactly as long as there was
no transaction (`Endpoint.Reaches.idle_iff`), and is never one of waiting or sending
(`Endpoint.Reaches.settled`).
-/

import Mathlib
import RemoteMemory.Proofs.Refusal

namespace RemoteMemory

/-- A phase of an endpoint that nothing is under way at. -/
def Phase.Settled (p : Phase) : Prop := p = .idle ∨ p = .completed ∨ p = .timedOut

/-! ### The end of a wait -/

namespace Endpoint

/-- What a batch waits for ends as it reports; an acknowledging batch waits for nothing, and ends
completed. -/
theorem phase_awaitAnswer? {e : Endpoint} (hidle : 0 < e.link.idle) {opcode : Request.Opcode}
    {fragments : ℕ} {tag : UInt8} {answer : Step ReadResult}
    (h : e.awaitAnswer? opcode fragments tag = some answer) :
    answer.endpoint.phase =
      if opcode = .ack ∨ answer.result.completed then .completed else .timedOut := by
  cases opcode with
  | read =>
    obtain ⟨-, rfl⟩ := waitRead?_eq_some_iff.1 h
    simp only [reduceCtorEq, false_or]
    exact phase_await hidle ..
  | write =>
    obtain rfl := Option.some.inj h
    simp only [reduceCtorEq, false_or]
    exact phase_await hidle ..
  | ack =>
    obtain rfl := Option.some.inj h
    rfl

end Endpoint

/-! ### One turn -/

/-- What an endpoint is asked, and what comes of it. -/
structure Turn where
  op : Operation
  step : Step Answer

namespace Turn

/-- The phase an endpoint shows after a turn. -/
def phase (t : Turn) : Phase := t.step.endpoint.phase

/-- A turn is a transaction: a wait, or a batch that is not refused. -/
def Transacts (t : Turn) : Prop :=
  match t.op with
  | .waitAck _ _ | .waitRead _ _ _ => True
  | .batch _ _ _ _ | .write _ _ _ | .read _ _ _ _ => t.step.result.error? = none
  | .sendAck _ _ | .sendRaw _ => False

/-- How a turn leaves the phase of an endpoint. -/
structure Settles (before : Phase) (t : Turn) : Prop where
  /-- A wait, a write or a read ends as it reports. -/
  waited : t.Transacts → t.op.awaited ≠ .nothing →
    t.phase = if t.step.result.completed then .completed else .timedOut
  /-- The one transaction that waits for nothing is an acknowledging batch.  It ends completed,
  though it reports that nothing came, and makes no poll. -/
  acknowledged : t.Transacts → t.op.awaited = .nothing →
    t.phase = .completed ∧ t.step.result.completed = false ∧ Call.arrivals t.step.calls = []
  /-- A refused batch, and a frame sent on its own, leave the phase as it was. -/
  unchanged : ¬ t.Transacts → t.phase = before

namespace Settles

variable {before : Phase} {t : Turn}

theorem eq_completed_or_timedOut (h : t.Settles before) (ht : t.Transacts) :
    t.phase = .completed ∨ t.phase = .timedOut := by
  by_cases hawaited : t.op.awaited = .nothing
  · exact .inl (h.acknowledged ht hawaited).1
  · rw [h.waited ht hawaited]
    split_ifs
    · exact .inl rfl
    · exact .inr rfl

theorem settled (h : t.Settles before) (hbefore : before.Settled) : t.phase.Settled := by
  by_cases ht : t.Transacts
  · exact .inr (h.eq_completed_or_timedOut ht)
  · rw [h.unchanged ht]
    exact hbefore

/-- A turn leaves an endpoint idle exactly if it was and the turn is no transaction. -/
theorem idle_iff (h : t.Settles before) : t.phase = .idle ↔ before = .idle ∧ ¬ t.Transacts := by
  constructor
  · intro hidle
    have ht : ¬ t.Transacts := by
      intro ht
      rcases h.eq_completed_or_timedOut ht with hphase | hphase
      · exact Phase.noConfusion (hidle.symm.trans hphase)
      · exact Phase.noConfusion (hidle.symm.trans hphase)
    exact ⟨(h.unchanged ht).symm.trans hidle, ht⟩
  · rintro ⟨rfl, ht⟩
    exact h.unchanged ht

end Settles

end Turn

namespace Endpoint

/-- **A batch settles the phase,** whichever operation asks for it. -/
theorem settles_batch? {e : Endpoint} (hidle : 0 < e.link.idle) {op : Operation}
    {fragments : List Octets} {address : UInt64} {opcode : Request.Opcode} {tag : UInt8}
    {t : Step (Except Error Outcome)} (h : e.batch? fragments address opcode tag = some t)
    (hawaited : op.awaited = awaitedBy tag opcode)
    (hop : Turn.Transacts ⟨op, t.map .outcome⟩ ↔ (Answer.outcome t.result).error? = none) :
    Turn.Settles e.phase ⟨op, t.map .outcome⟩ := by
  rcases batch?_cases h with ⟨cause, -, rfl⟩ | ⟨-, answer, hanswer, rfl⟩
  · have hrefused := mt hop.1 (Option.some_ne_none cause)
    exact ⟨fun ht => absurd ht hrefused, fun ht => absurd ht hrefused, fun _ => rfl⟩
  · have hsent : 0 < (e.afterSending fragments.length).link.idle := hidle
    have hphase := phase_awaitAnswer? hsent hanswer
    refine ⟨fun _ hwaits => ?_, fun _ hno => ?_, fun hno => absurd (hop.2 rfl) hno⟩
    · have hack : opcode ≠ .ack := by
        rintro rfl
        exact hwaits hawaited
      simp only [hack, false_or] at hphase
      exact hphase
    · have hack : opcode = .ack := by
        rw [hawaited] at hno
        cases opcode with
        | ack => rfl
        | _ => cases hno
      subst hack
      obtain rfl := Option.some.inj hanswer
      have hpolls : Call.arrivals (e.offers address (e.wireOpcode .ack) tag fragments) = [] :=
        Call.arrivals_of_sends fun c hc => isSend_of_mem_offers hc
      refine ⟨rfl, rfl, ?_⟩
      simp only [answered, Step.map, List.append_nil, hpolls]

/-- **Every answered operation settles the phase,** where idle polls take time. -/
theorem settles_of_perform? {e : Endpoint} (hidle : 0 < e.link.idle) {op : Operation}
    {s : Step Answer} (h : e.perform? op = some s) : Turn.Settles e.phase ⟨op, s⟩ := by
  cases performs_of_perform? h with
  | batch hsends ht =>
    refine settles_batch? hidle ht hsends.awaited_eq ?_
    cases hsends <;> exact Iff.rfl
  | waitAck timeout tag =>
    refine ⟨fun _ _ => phase_await hidle .., fun _ hno => ?_, fun hno => absurd trivial hno⟩
    cases hno
  | waitRead timeout expected tag =>
    refine ⟨fun _ _ => phase_await hidle .., fun _ hno => ?_, fun hno => absurd trivial hno⟩
    cases hno
  | sendAck address tag => exact ⟨fun ht => ht.elim, fun ht => ht.elim, fun _ => rfl⟩
  | sendRaw frame => exact ⟨fun ht => ht.elim, fun ht => ht.elim, fun _ => rfl⟩

/-! ### Runs -/

/-- The turns of a run: what was asked and answered, in order. -/
def turns (e : Endpoint) (ops : List Operation) : List Turn := List.zipWith Turn.mk ops (e.run ops)

/-- Turns lead from an endpoint to the one they leave. -/
inductive Reaches : Endpoint → List Turn → Endpoint → Prop
  | refl (e : Endpoint) : Reaches e [] e
  | turn {e : Endpoint} {op : Operation} {s : Step Answer} {ts : List Turn} {last : Endpoint} :
    e.perform? op = some s → Reaches s.endpoint ts last → Reaches e (⟨op, s⟩ :: ts) last

theorem exists_reaches_turns (e : Endpoint) (ops : List Operation) :
    ∃ last, e.Reaches (e.turns ops) last := by
  induction ops generalizing e with
  | nil => exact ⟨e, .refl e⟩
  | cons op ops ih =>
    unfold turns run
    cases hop : e.perform? op with
    | none => exact ⟨e, .refl e⟩
    | some s =>
      obtain ⟨last, hlast⟩ := ih s.endpoint
      exact ⟨last, .turn hop hlast⟩

namespace Reaches

variable {e last : Endpoint} {ts : List Turn}

/-- A run can be cut between any two turns. -/
theorem exists_of_append {earlier later : List Turn} (h : e.Reaches (earlier ++ later) last) :
    ∃ mid, e.Reaches earlier mid ∧ mid.Reaches later last := by
  induction earlier generalizing e with
  | nil => exact ⟨e, .refl e, h⟩
  | cons t earlier ih =>
    cases h with
    | turn hop hrest =>
      obtain ⟨mid, hearlier, hlater⟩ := ih hrest
      exact ⟨mid, .turn hop hearlier, hlater⟩

theorem trans {mid : Endpoint} {later : List Turn} (h : e.Reaches ts mid)
    (h' : mid.Reaches later last) : e.Reaches (ts ++ later) last := by
  induction h with
  | refl e => exact h'
  | turn hop _ ih => exact .turn hop (ih h')

theorem idle_eq (h : e.Reaches ts last) : last.link.idle = e.link.idle := by
  induction h with
  | refl e => rfl
  | turn hop _ ih =>
    obtain ⟨sends, k, hdoes⟩ := exists_does_of_perform? hop
    exact ih.trans hdoes.setUpLike.idle

/-- **Between operations an endpoint is not under way.** -/
theorem settled (h : e.Reaches ts last) (hidle : 0 < e.link.idle) (hphase : e.phase.Settled) :
    last.phase.Settled := by
  induction h with
  | refl e => exact hphase
  | turn hop hrest ih =>
    obtain ⟨sends, k, hdoes⟩ := exists_does_of_perform? hop
    exact ih (hdoes.setUpLike.idle ▸ hidle) ((settles_of_perform? hidle hop).settled hphase)

/-- **An endpoint stays idle exactly as long as there is no transaction.** -/
theorem idle_iff (h : e.Reaches ts last) (hidle : 0 < e.link.idle) :
    last.phase = .idle ↔ e.phase = .idle ∧ ∀ t ∈ ts, ¬ t.Transacts := by
  induction h with
  | refl e => simp
  | turn hop hrest ih =>
    obtain ⟨sends, k, hdoes⟩ := exists_does_of_perform? hop
    have hturn := (settles_of_perform? hidle hop).idle_iff
    rw [ih (hdoes.setUpLike.idle ▸ hidle), List.forall_mem_cons, ← and_assoc]
    exact and_congr_left' hturn

end Reaches

end Endpoint

/-- An operation whose buffers can be had: 2⁶³ − 1 octets at most for the replies that a wait
expects, and for the fragments of a read, each of them, the list of them and all together.  A read
waits for its replies only if its fragments are not refused. -/
def Operation.fitsBuffers : Operation → Bool
  | .batch fragments _ .read _ =>
    (∀ f ∈ fragments, 1 ≤ f.length ∧ f.length ≤ 226) → 226 * fragments.length < 2 ^ 63
  | .read _ length count _ =>
    length < 2 ^ 63 ∧ 24 * count < 2 ^ 63 ∧ length * count < 2 ^ 63 ∧
      (1 ≤ length ∧ length ≤ 226 → 226 * count < 2 ^ 63)
  | .waitRead _ expected _ => 226 * expected < 2 ^ 63
  | _ => true

namespace Endpoint

theorem isSome_batch?_iff (e : Endpoint) (fragments : List Octets) (address : UInt64)
    (opcode : Request.Opcode) (tag : UInt8) :
    (e.batch? fragments address opcode tag).isSome = true ↔
      (opcode = .read → (∀ f ∈ fragments, Sendable f) → 226 * fragments.length < 2 ^ 63) := by
  by_cases hf : ∀ f ∈ fragments, Sendable f
  · rw [← Option.ne_none_iff_isSome, Ne, e.batch?_eq_none_iff hf, not_and, Nat.not_le]
    exact forall_congr' fun _ => ⟨fun h _ => h, fun h => h hf⟩
  · have hcause := mt findSome?_fragmentError?_eq_none_iff.1 hf
    obtain ⟨cause, hcause⟩ := Option.ne_none_iff_exists'.1 hcause
    rw [batch?_eq_of_cause hcause]
    exact iff_of_true rfl fun _ h => absurd h hf

theorem isSome_read?_iff (e : Endpoint) (address : UInt64) (length count : ℕ) (tag : UInt8) :
    (e.read? address length count tag).isSome = true ↔
      RequestsFit length count ∧ (1 ≤ length ∧ length ≤ 226 → 226 * count < 2 ^ 63) := by
  by_cases hfits : RequestsFit length count
  · rw [e.read?_eq_batch? address tag hfits, isSome_batch?_iff, and_iff_right hfits, requests,
      List.length_replicate, List.forall_mem_replicate, Sendable, List.length_replicate]
    -- a read of nothing sends nothing, whatever the length
    constructor
    · exact fun h hlength => h rfl (.inr hlength)
    · rintro h - (rfl | hlength)
      · decide
      · exact h hlength
  · rw [read?_eq_none hfits]
    simp [hfits]

theorem isSome_perform? (e : Endpoint) (op : Operation) :
    (e.perform? op).isSome = op.fitsBuffers := by
  cases op with
  | batch fragments address opcode tag =>
    rw [perform?, Option.isSome_map, Bool.eq_iff_iff, isSome_batch?_iff]
    cases opcode with
    | read =>
      rw [Operation.fitsBuffers, decide_eq_true_iff]
      exact ⟨fun h => h rfl, fun h _ => h⟩
    | write => simp [Operation.fitsBuffers]
    | ack => simp [Operation.fitsBuffers]
  | write fragments address tag =>
    rw [perform?, Option.isSome_map, Bool.eq_iff_iff, write?, isSome_batch?_iff]
    simp [Operation.fitsBuffers]
  | read address length count tag =>
    rw [perform?, Option.isSome_map, Bool.eq_iff_iff, isSome_read?_iff, requestsFit_iff,
      Operation.fitsBuffers, decide_eq_true_iff, and_assoc, and_assoc]
  | waitRead timeout expected tag =>
    rw [perform?, Option.isSome_map, Bool.eq_iff_iff, Operation.fitsBuffers, decide_eq_true_iff,
      ← fits_replies_iff]
    unfold waitRead?
    split_ifs with h
    · simp [h]
    · simp [h]
  | _ => rfl

theorem map_step_turns (e : Endpoint) (ops : List Operation) :
    (e.turns ops).map Turn.step = e.run ops := by
  induction ops generalizing e with
  | nil => rfl
  | cons op ops ih =>
    unfold turns run
    cases e.perform? op with
    | none => rfl
    | some s => exact congrArg _ (ih s.endpoint)

/-- **A run ends at the first operation that has no answer.** -/
theorem map_op_turns (e : Endpoint) (ops : List Operation) :
    (e.turns ops).map Turn.op = ops.takeWhile Operation.fitsBuffers := by
  induction ops generalizing e with
  | nil => rfl
  | cons op ops ih =>
    rw [List.takeWhile_cons, ← e.isSome_perform? op]
    unfold turns run
    cases e.perform? op with
    | none => rfl
    | some s => exact congrArg _ (ih s.endpoint)

/-- The phase an endpoint shows after turns, from one it shows before them. -/
def phaseAfter (phase : Phase) (ts : List Turn) : Phase := (ts.getLast?.map Turn.phase).getD phase

theorem Reaches.phase_eq {e last : Endpoint} {ts : List Turn} (h : e.Reaches ts last) :
    last.phase = phaseAfter e.phase ts := by
  induction h with
  | refl e => rfl
  | @turn e op s ts last hop hrest ih =>
    rw [ih]
    cases ts with
    | nil => rfl
    | cons t ts =>
      obtain ⟨t', ht'⟩ : ∃ t', (t :: ts).getLast? = some t' :=
        ⟨_, List.getLast?_eq_some_getLast (List.cons_ne_nil t ts)⟩
      rw [phaseAfter, phaseAfter, List.getLast?_cons_cons, ht']
      rfl

/-- **The phases of a run.**  An endpoint over a link whose idle polls take time is asked one
thing after the other.  Every operation is answered, up to the first that needs too long a
buffer.  After each of them the endpoint is idle, completed or timed out: idle exactly if none
so far was a transaction, and completed or timed out as the last transaction tells
(`Turn.Settles`). -/
theorem phases_of_run {link : Link} {settings : Settings} {e : Endpoint}
    (he : create link settings = .ok e) (hidle : 0 < link.idle) (ops : List Operation) :
    (e.turns ops).map Turn.op = ops.takeWhile Operation.fitsBuffers ∧
    (e.turns ops).map Turn.step = e.run ops ∧
    ∀ earlier t later, e.turns ops = earlier ++ t :: later →
      (t.phase = .idle ∨ t.phase = .completed ∨ t.phase = .timedOut) ∧
      (t.phase = .idle ↔ ∀ t' ∈ earlier ++ [t], ¬ t'.Transacts) ∧
      t.Settles (phaseAfter .idle earlier) := by
  refine ⟨e.map_op_turns ops, e.map_step_turns ops, fun earlier t later hsplit => ?_⟩
  obtain ⟨rfl, -, hphase⟩ := create_eq_ok_iff.1 he
  obtain ⟨last, hlast⟩ := e.exists_reaches_turns ops
  rw [hsplit] at hlast
  obtain ⟨mid, hearlier, hlater⟩ := hlast.exists_of_append
  cases hlater with
  | @turn _ op s _ _ hop hrest =>
    have hall : e.Reaches (earlier ++ [⟨op, s⟩]) s.endpoint :=
      hearlier.trans (.turn hop (.refl s.endpoint))
    have hsettles := settles_of_perform? (hearlier.idle_eq ▸ hidle) hop
    rw [hearlier.phase_eq, hphase] at hsettles
    refine ⟨hall.settled hidle (.inl hphase), ?_, hsettles⟩
    exact (hall.idle_iff hidle).trans (and_iff_right hphase)

/-- A refused write, an acknowledging batch, and a write whose acknowledgment does not come. -/
theorem phases_of_run_timed_out :
    let link : Link := { idle := 60000 }
    let e : Endpoint :=
      { settings := {}
        mac := .zero
        peer := .zero
        link }
    let ops : List Operation :=
      [.write [[]] 0x2000 0x10, .batch [[0xAA]] 0x2000 .ack 0x10, .write [[0xAA]] 0x2000 0x10]
    create link {} = .ok e ∧ 0 < link.idle ∧
      (e.turns ops).map Turn.op = ops ∧
      (e.turns ops).map Turn.phase = [.idle, .completed, .timedOut] ∧
      ∀ earlier t later, e.turns ops = earlier ++ t :: later →
        t.Settles (phaseAfter .idle earlier) := by
  intro link e ops
  have he : create link {} = .ok e := by rfl
  obtain ⟨hops, -, hturns⟩ := phases_of_run he (by decide) ops
  exact ⟨he, by decide, hops, by decide +kernel,
    fun earlier t later hsplit => (hturns earlier t later hsplit).2.2⟩

/-- A wait for more replies than any buffer holds is neither completed nor timed out: it has no
answer, and the run ends before it. -/
theorem oversized_wait_shows_no_phase :
    let e : Endpoint :=
      { settings := {}
        mac := .zero
        peer := .zero
        link := {} }
    let wait : Operation := .waitRead 1000 (2 ^ 63) 0x10
    create {} {} = .ok e ∧ 0 < e.link.idle ∧
      ¬ ∃ t ∈ e.turns [wait], t.op = wait ∧ (t.phase = .completed ∨ t.phase = .timedOut) := by
  intro e wait
  refine ⟨by rfl, by decide, ?_⟩
  rintro ⟨t, ht, -, -⟩
  have hop : t.op ∈ (e.turns [wait]).map Turn.op := List.mem_map_of_mem ht
  rw [e.map_op_turns] at hop
  exact absurd hop (by simp [wait, Operation.fitsBuffers])

end Endpoint

end RemoteMemory
