/-
# Noise on the link

The frame filter, `SPEC_FULL.md`, section 4.5: "rejected frames [...] do not end the wait".

Noise for a filter takes no time and brings no frame, or one that the filter refuses
(`Arrival.IsNoise`).  It can stand anywhere in a script, among its events and among the idle
polls behind them (`Link.Noisier`).

A wait polls noise and is where it was.  So a wait over a script and one over a noisier script
go side by side: the latter makes some polls alone, and all others bring the same to both
(`Watch.Quieter`).  What is reported of them is the same, their result, phase and time, and so
is what is reported of every operation (`Endpoint.report_perform?_hearing`).

The frames that an endpoint sends itself are noise when it hears them, unless it is its own
peer: the request for a read has the operation and the tag of the replies to it, but comes from
another address (`Endpoint.recognizes_own_frame`).  Both together are
`Endpoint.noise_is_overlooked`.
-/

import Mathlib
import RemoteMemory.Proofs.Run

namespace RemoteMemory

/-- What is reported of a step: its result, the phase it leaves, and the time it took. -/
def Step.report {α : Type} (s : Step α) : α × Phase × ℕ :=
  (s.result, s.endpoint.phase, Call.elapsed s.calls)

/-- Noise for a filter: an arrival that takes no time, and brings no frame or one that the filter
does not take. -/
def Arrival.IsNoise (takes : Octets → Bool) (a : Arrival) : Prop :=
  a.micros = 0 ∧ ∀ f, a.frame = some f → takes f = false

/-- A script with noise put in, among its events and among the idle polls behind them. -/
inductive Link.Noisier (takes : Octets → Bool) (idle : ℕ) : List Arrival → List Arrival → Prop
  | nil : Noisier takes idle [] []
  | keep (a : Arrival) {as bs : List Arrival} :
    Noisier takes idle as bs → Noisier takes idle (a :: as) (a :: bs)
  | put {a : Arrival} {as bs : List Arrival} :
    a.IsNoise takes → Noisier takes idle as bs → Noisier takes idle as (a :: bs)
  /-- An idle poll may be written out, so that noise can follow it. -/
  | idle {bs : List Arrival} :
    Noisier takes idle [] bs → Noisier takes idle [] ({ micros := idle } :: bs)

/-- The empty script is noisier than no other. -/
theorem Link.Noisier.eq_nil {takes : Octets → Bool} {idle : ℕ} {as : List Arrival}
    (h : Noisier takes idle as []) : as = [] := by
  cases h
  rfl

/-! ### Waits -/

namespace Watch

variable {opcode tag : UInt8} {w w' : Watch}

theorem setUpLike_poll (opcode tag : UInt8) (w : Watch) :
    (w.poll opcode tag).endpoint.SetUpLike w.endpoint :=
  ⟨rfl, rfl, rfl, Link.idle_poll _⟩

/-- One watch is another over a noisier script. -/
structure Quieter (opcode tag : UInt8) (w w' : Watch) : Prop where
  setUp : w'.endpoint.SetUpLike w.endpoint
  phase : w'.endpoint.phase = w.endpoint.phase
  script : Link.Noisier (w.endpoint.accepts opcode tag) w.endpoint.link.idle
    w.endpoint.link.pending w'.endpoint.link.pending
  left : w'.left = w.left
  missing : w'.missing = w.missing
  counted : Call.counted w'.calls.reverse = Call.counted w.calls.reverse
  elapsed : Call.elapsed w'.calls.reverse = Call.elapsed w.calls.reverse

namespace Quieter

/-- Where the watch over the script goes on, so does the one over the noisier script. -/
theorem goes (h : w.Quieter opcode tag w') (hgoes : w.Goes) : w'.Goes := by
  obtain ⟨hmissing, hleft, hsilent⟩ := hgoes
  refine ⟨h.missing ▸ hmissing, h.left ▸ hleft, ?_⟩
  rintro ⟨hpending, hidle⟩
  have hscript := h.script
  rw [hpending] at hscript
  exact hsilent ⟨hscript.eq_nil, h.setUp.idle ▸ hidle⟩

/-- A poll that brings noise is made by the watch over the noisier script alone. -/
theorem poll_noise (h : w.Quieter opcode tag w') {a : Arrival} {rest : List Arrival}
    (hpending : w'.endpoint.link.pending = a :: rest)
    (hnoise : a.IsNoise (w.endpoint.accepts opcode tag))
    (hrest : Link.Noisier (w.endpoint.accepts opcode tag) w.endpoint.link.idle
      w.endpoint.link.pending rest) :
    w.Quieter opcode tag (w'.poll opcode tag) := by
  obtain ⟨hzero, hrefused⟩ := hnoise
  have hpoll : w'.endpoint.link.poll = (Link.cut a, { w'.endpoint.link with pending := rest }) := by
    rw [Link.poll, hpending]
  have hcounted : (Link.cut a).frame.any (w'.endpoint.accepts opcode tag) = false := by
    rw [h.setUp.accepts_eq]
    cases hf : a.frame with
    | none => simp [Link.cut, hf]
    | some f =>
      have hreceived : w.endpoint.accepts opcode tag (f.take Link.bufferSize) = false :=
        (w.endpoint.accepts_received opcode tag f).trans (hrefused f hf)
      simp [Link.cut, hf, hreceived]
  refine ⟨(setUpLike_poll opcode tag w').trans h.setUp, h.phase, ?_, ?_, ?_, ?_, ?_⟩
  · simpa only [poll, hpoll] using hrest
  · simp only [poll, hpoll, Link.cut, hzero, Nat.sub_zero, h.left]
  · simp only [poll, hpoll, hcounted, Bool.false_eq_true, if_false, h.missing]
  · simp only [poll, hpoll, hcounted, List.reverse_cons, Call.counted_append, h.counted]
    exact List.append_nil _
  · simp only [poll, hpoll, List.reverse_cons, Call.elapsed_append, h.elapsed]
    exact congrArg _ hzero

/-- A poll that brings the same to both is made by both. -/
theorem poll_both (h : w.Quieter opcode tag w')
    (harrival : w'.endpoint.link.poll.1 = w.endpoint.link.poll.1)
    (hrest : Link.Noisier (w.endpoint.accepts opcode tag) w.endpoint.link.idle
      w.endpoint.link.poll.2.pending w'.endpoint.link.poll.2.pending) :
    (w.poll opcode tag).Quieter opcode tag (w'.poll opcode tag) := by
  have hlike := setUpLike_poll opcode tag w
  have hlike' := setUpLike_poll opcode tag w'
  refine ⟨?_, h.phase, ?_, ?_, ?_, ?_, ?_⟩
  · exact ⟨h.setUp.settings, h.setUp.mac, h.setUp.peer,
      hlike'.idle.trans (h.setUp.idle.trans hlike.idle.symm)⟩
  · rw [hlike.accepts_eq, hlike.idle]
    exact hrest
  · simp only [poll, harrival, h.left]
  · simp only [poll, harrival, h.setUp.accepts_eq, h.missing]
  · simp only [poll, harrival, h.setUp.accepts_eq, List.reverse_cons, Call.counted_append,
      h.counted]
  · simp only [poll, harrival, h.setUp.accepts_eq, List.reverse_cons, Call.elapsed_append,
      h.elapsed]

/-- **The next poll brings noise,** and the watch over the noisier script makes it alone, or it
brings the same to both. -/
theorem poll_cases (h : w.Quieter opcode tag w') (hgoes : w'.Goes) :
    w.Quieter opcode tag (w'.poll opcode tag) ∨
      w.Goes ∧ (w.poll opcode tag).Quieter opcode tag (w'.poll opcode tag) := by
  obtain ⟨hmissing, hleft, hsilent⟩ := hgoes
  have hboth : ¬ w.endpoint.link.Silent →
      w'.endpoint.link.poll.1 = w.endpoint.link.poll.1 →
      Link.Noisier (w.endpoint.accepts opcode tag) w.endpoint.link.idle
        w.endpoint.link.pending.tail w'.endpoint.link.pending.tail →
      w.Goes ∧ (w.poll opcode tag).Quieter opcode tag (w'.poll opcode tag) := by
    intro hdelivers harrival hrest
    refine ⟨⟨h.missing ▸ hmissing, h.left ▸ hleft, hdelivers⟩, h.poll_both harrival ?_⟩
    rw [Link.pending_poll, Link.pending_poll]
    exact hrest
  have hscript := h.script
  generalize hp : w.endpoint.link.pending = as at hscript hboth
  generalize hp' : w'.endpoint.link.pending = bs at hscript hboth
  cases hscript with
  | nil =>
    refine .inr (hboth (fun hs => hsilent ⟨hp', h.setUp.idle.trans hs.2⟩) ?_ .nil)
    simp [Link.arrival, hp, hp', h.setUp.idle]
  | keep a hrest =>
    refine .inr (hboth (fun hs => ?_) ?_ hrest)
    · exact List.cons_ne_nil _ _ (hp.symm.trans hs.1)
    · simp [Link.arrival, hp, hp']
  | put hnoise hrest => exact .inl (h.poll_noise hp' hnoise (hp ▸ hrest))
  | idle hrest =>
    -- an idle poll that takes no time is noise itself
    by_cases hzero : w.endpoint.link.idle = 0
    · exact .inl (h.poll_noise hp' ⟨hzero, by simp⟩ (hp ▸ hrest))
    · refine .inr (hboth (fun hs => hzero hs.2) ?_ hrest)
      simp [Link.arrival, Link.cut, hp, hp']

/-- **Watches over a script and a noisier one end alike.** -/
theorem run (h : w.Quieter opcode tag w') :
    (Watch.run opcode tag w).Quieter opcode tag (Watch.run opcode tag w') := by
  fun_induction Watch.run opcode tag w' generalizing w with
  | case1 w' hgoes ih =>
    rcases h.poll_cases hgoes with hnoise | ⟨hgoes', hboth⟩
    · exact ih hnoise
    · rw [run_of_goes hgoes']
      exact ih hboth
  | case2 w' hstop =>
    rw [run_of_not_goes (mt h.goes hstop)]
    exact h

theorem phase_settled (h : w.Quieter opcode tag w') : w'.settled.phase = w.settled.phase := by
  rw [settled, settled, h.missing, h.left]
  split_ifs
  · rfl
  · rfl
  · exact h.phase

end Quieter

end Watch

/-! ### Operations -/

theorem Step.report_map_congr {α β : Type} {s s' : Step α} (h : s'.report = s.report)
    (f : α → β) : (s'.map f).report = (s.map f).report :=
  congrArg (Prod.map f id) h

theorem Step.map_report_map_congr {α β : Type} {s s' : Option (Step α)}
    (h : s'.map report = s.map report) (f : α → β) :
    (s'.map (·.map f)).map report = (s.map (·.map f)).map report := by
  have hreport : ∀ t : Option (Step α),
      (t.map (·.map f)).map report = (t.map report).map (Prod.map f id) := by
    intro t
    rw [Option.map_map, Option.map_map]
    rfl
  rw [hreport, hreport, h]

namespace Endpoint

/-- The endpoint with another script on its link. -/
def hearing (e : Endpoint) (script : List Arrival) : Endpoint :=
  { e with link := { e.link with pending := script } }

variable {e : Endpoint} {script : List Arrival}

/-- **A wait is not disturbed by noise,** neither in what is reported of it nor in what it
counts. -/
theorem await_hearing {opcode tag : UInt8}
    (h : Link.Noisier (e.accepts opcode tag) e.link.idle e.link.pending script) (phase : Phase)
    (wanted timeout : ℕ) :
    ((e.hearing script).await phase opcode tag wanted timeout).report =
        (e.await phase opcode tag wanted timeout).report ∧
      Call.counted ((e.hearing script).await phase opcode tag wanted timeout).calls =
        Call.counted (e.await phase opcode tag wanted timeout).calls := by
  have hstart : Watch.Quieter opcode tag
      { endpoint := e.enter phase, left := timeout, missing := wanted }
      { endpoint := (e.hearing script).enter phase, left := timeout, missing := wanted } :=
    ⟨⟨rfl, rfl, rfl, rfl⟩, rfl, h, rfl, rfl, rfl, rfl⟩
  have hend := hstart.run
  refine ⟨?_, hend.counted⟩
  simp only [await, Step.report, hend.missing, hend.elapsed, hend.phase_settled]

theorem report_waitAck_hearing {tag : UInt8}
    (h : Link.Noisier (e.recognizes (.ack tag)) e.link.idle e.link.pending script)
    (timeout : ℕ) :
    ((e.hearing script).waitAck timeout tag).report = (e.waitAck timeout tag).report :=
  (await_hearing h .awaitingAck 1 timeout).1

theorem report_gather_hearing {tag : UInt8}
    (h : Link.Noisier (e.recognizes (.replies tag)) e.link.idle e.link.pending script)
    (timeout expected : ℕ) :
    ((e.hearing script).gather timeout expected tag).report =
      (e.gather timeout expected tag).report := by
  obtain ⟨hreport, hcounted⟩ := await_hearing h .awaitingRead expected timeout
  rw [gather, gather, hcounted]
  exact Step.report_map_congr hreport _

theorem report_waitRead?_hearing {tag : UInt8}
    (h : Link.Noisier (e.recognizes (.replies tag)) e.link.idle e.link.pending script)
    (timeout expected : ℕ) :
    ((e.hearing script).waitRead? timeout expected tag).map Step.report =
      (e.waitRead? timeout expected tag).map Step.report := by
  unfold waitRead?
  split_ifs
  · exact congrArg some (report_gather_hearing h timeout expected)
  · rfl

theorem report_awaitAnswer?_hearing {opcode : Request.Opcode} {tag : UInt8}
    (h : Link.Noisier (e.recognizes (awaitedBy tag opcode)) e.link.idle e.link.pending script)
    (fragments : ℕ) :
    ((e.hearing script).awaitAnswer? opcode fragments tag).map Step.report =
      (e.awaitAnswer? opcode fragments tag).map Step.report := by
  cases opcode with
  | read => exact report_waitRead?_hearing h e.settings.readTimeout fragments
  | write =>
    exact congrArg some
      (Step.report_map_congr (report_waitAck_hearing h e.settings.ackTimeout) _)
  | ack => rfl

/-- What is reported of a batch that goes out, by what is reported of its wait. -/
theorem report_batch? (e : Endpoint) {fragments : List Octets} (hf : ∀ f ∈ fragments, Sendable f)
    (address : UInt64) (opcode : Request.Opcode) (tag : UInt8) :
    (e.batch? fragments address opcode tag).map Step.report =
      (((e.afterSending fragments.length).awaitAnswer? opcode fragments.length tag).map
        Step.report).map (Prod.map (fun r => .ok
          { completed := r.completed
            responses := r.responses
            framesSent := (e.link.verdicts fragments.length).count true
            sendFailures := (e.link.verdicts fragments.length).count false }) id) := by
  have hsends : Call.elapsed (e.offers address (e.wireOpcode opcode) tag fragments) = 0 :=
    Call.elapsed_of_sends fun c hc => isSend_of_mem_offers hc
  rw [e.batch?_eq hf, Option.map_map, Option.map_map]
  refine congrArg (Option.map · _) (funext fun answer => ?_)
  simp only [Function.comp_apply, Step.report, answered, Call.elapsed_append, hsends, Nat.zero_add]
  rfl

theorem report_batch?_hearing {opcode : Request.Opcode} {tag : UInt8}
    (h : Link.Noisier (e.recognizes (awaitedBy tag opcode)) e.link.idle e.link.pending script)
    (fragments : List Octets) (address : UInt64) :
    ((e.hearing script).batch? fragments address opcode tag).map Step.report =
      (e.batch? fragments address opcode tag).map Step.report := by
  cases hcause : fragments.findSome? fragmentError? with
  | some cause =>
    rw [batch?_eq_of_cause hcause, batch?_eq_of_cause hcause]
    rfl
  | none =>
    have hf := findSome?_fragmentError?_eq_none_iff.1 hcause
    let sent := e.afterSending fragments.length
    have hwait : ((sent.hearing script).awaitAnswer? opcode fragments.length tag).map Step.report =
        (sent.awaitAnswer? opcode fragments.length tag).map Step.report :=
      report_awaitAnswer?_hearing (e := sent) h fragments.length
    have hanswers : (e.hearing script).link.answers = e.link.answers := rfl
    rw [report_batch? _ hf, report_batch? _ hf, Link.verdicts_congr hanswers]
    exact congrArg _ hwait

theorem report_read?_hearing {tag : UInt8}
    (h : Link.Noisier (e.recognizes (.replies tag)) e.link.idle e.link.pending script)
    (address : UInt64) (length count : ℕ) :
    ((e.hearing script).read? address length count tag).map Step.report =
      (e.read? address length count tag).map Step.report := by
  by_cases hfits : RequestsFit length count
  · rw [read?_eq_batch? _ address tag hfits, read?_eq_batch? _ address tag hfits]
    exact report_batch?_hearing h (requests length count) address
  · rw [read?_eq_none hfits, read?_eq_none hfits]

theorem report_send_hearing (e : Endpoint) (script : List Arrival) (frame : Octets) :
    ((e.hearing script).send frame).report = (e.send frame).report := by
  have hanswers : (e.hearing script).link.answers = e.link.answers := rfl
  exact congrArg (·, e.phase, 0) (Link.offer_fst_congr hanswers)

/-- **No operation is disturbed by noise** for what it awaits. -/
theorem report_perform?_hearing (op : Operation)
    (h : Link.Noisier (e.recognizes op.awaited) e.link.idle e.link.pending script) :
    ((e.hearing script).perform? op).map Step.report = (e.perform? op).map Step.report := by
  cases op with
  | batch fragments address opcode tag =>
    exact Step.map_report_map_congr (report_batch?_hearing h fragments address) _
  | write fragments address tag =>
    have hack : Link.Noisier (e.recognizes (awaitedBy tag .write)) e.link.idle e.link.pending
      script := h
    exact Step.map_report_map_congr (report_batch?_hearing hack fragments address) _
  | read address length count tag =>
    exact Step.map_report_map_congr (report_read?_hearing h address length count) _
  | waitAck timeout tag =>
    exact congrArg some (Step.report_map_congr (report_waitAck_hearing h timeout) _)
  | waitRead timeout expected tag =>
    exact Step.map_report_map_congr (report_waitRead?_hearing h timeout expected) _
  | sendAck address tag =>
    have hframe : (e.hearing script).frame = e.frame := rfl
    rw [perform?, perform?, sendAck, sendAck, frameFor_eq_ok (by decide),
      frameFor_eq_ok (by decide), hframe]
    exact congrArg some (Step.report_map_congr
      (Step.report_map_congr (report_send_hearing e script _) _) _)
  | sendRaw frame =>
    exact congrArg some (Step.report_map_congr (report_send_hearing e script frame) _)

/-! ### Own frames -/

/-- An endpoint sends a frame of its own: it offers it for an operation that is answered, or in a
batch, answered or not. -/
def SendsOwn (e : Endpoint) (own : Octets) : Prop :=
  (∃ op s, (∀ frame, op ≠ .sendRaw frame) ∧ e.perform? op = some s ∧ own ∈ Call.offered s.calls) ∨
    ∃ fragments address opcode tag,
      own ∈ Call.offered (e.dispatch fragments address opcode tag).calls

/-- Own frames are frames that the endpoint builds. -/
theorem SendsOwn.exists_frame {own : Octets} (h : e.SendsOwn own) :
    ∃ address payload opcode tag, own = e.frame address payload opcode tag := by
  have hdispatch : ∀ {fragments address opcode tag},
      own ∈ Call.offered (e.dispatch fragments address opcode tag).calls →
      ∃ address payload opcode tag, own = e.frame address payload opcode tag := by
    intro fragments address opcode tag hown
    obtain ⟨payload, -, hframe⟩ := exists_of_mem_offered_dispatch hown
    exact ⟨_, _, _, _, hframe⟩
  rcases h with ⟨op, s, hraw, hs, hown⟩ | ⟨fragments, address, opcode, tag, hown⟩
  · cases performs_of_perform? hs with
    | batch hsends ht => exact hdispatch (offered_batch? ht ▸ hown)
    | waitAck timeout tag =>
      obtain ⟨k, hd⟩ := e.exists_does_waitAck timeout tag
      rw [(hd.map Answer.acked).offered] at hown
      cases hown
    | waitRead timeout expected tag =>
      obtain ⟨k, hd⟩ := e.exists_does_gather timeout expected tag
      rw [(hd.map Answer.replies).offered] at hown
      cases hown
    | sendAck address tag =>
      obtain rfl := List.mem_singleton.1 hown
      exact ⟨address, [0], _, tag, rfl⟩
    | sendRaw frame => exact absurd rfl (hraw frame)
  · exact hdispatch hown

/-- **Own frames are no replies,** unless an endpoint is its own peer. -/
theorem recognizes_own_frame (hv : e.settings.validateFrames = true) (hother : e.mac ≠ e.peer)
    (awaited : Awaited) (address : UInt64) (payload : Octets) (opcode tag : UInt8) :
    e.recognizes awaited (e.frame address payload opcode tag) = false := by
  have hrefused : ∀ opcode' tag',
      e.accepts opcode' tag' (e.frame address payload opcode tag) = false := by
    intro opcode' tag'
    rw [← Bool.not_eq_true, accepts_frame_iff hv e]
    rintro ⟨hmac, -⟩
    exact hother hmac
  cases awaited with
  | nothing => rfl
  | ack tag' => exact hrefused _ tag'
  | replies tag' => exact hrefused _ tag'

/-- **Noise and own frames are overlooked.**  Noise put into the script, anywhere and as much of
it as one likes, changes nothing in what is reported of an operation: the answer with the data
of the replies, the phase it leaves, and the time.  And a frame of its own that an endpoint sent,
at whatever time and for whatever operation, is noise to it when it hears it without delay, and
never counted however it hears it, if it looks at frames and is not its own peer. -/
theorem noise_is_overlooked (e : Endpoint) :
    (∀ op script, Link.Noisier (e.recognizes op.awaited) e.link.idle e.link.pending script →
      ((e.hearing script).perform? op).map Step.report = (e.perform? op).map Step.report) ∧
    (e.settings.validateFrames = true → e.mac ≠ e.peer →
      ∀ link phase own, ({ e with link, phase } : Endpoint).SendsOwn own →
        (∀ awaited, (Arrival.now own).IsNoise (e.recognizes awaited)) ∧
        ∀ op t, e.perform? op = some t → Link.received own ∉ Call.counted t.calls) := by
  refine ⟨fun op script => report_perform?_hearing op, ?_⟩
  intro hv hother link phase own hown
  obtain ⟨address, payload, opcode, tag, rfl⟩ := hown.exists_frame
  have hrefused : ∀ awaited, e.recognizes awaited (e.frame address payload opcode tag) = false :=
    fun awaited => recognizes_own_frame hv hother awaited address payload opcode tag
  constructor
  · intro awaited
    refine ⟨rfl, fun f hf => ?_⟩
    obtain rfl := Option.some.inj hf
    exact hrefused awaited
  · intro op t ht hcounted
    obtain ⟨sends, k, hd⟩ := exists_does_of_perform? ht
    rw [hd.counted, List.mem_filter, recognizes_received] at hcounted
    exact absurd hcounted.2 (by simp [hrefused])

/-- A read whose own request is heard before the reply to it. -/
theorem noise_is_overlooked_own_request :
    let e : Endpoint :=
      { settings := { srcMac := "02:00:00:00:00:01", dstMac := "02:00:00:00:00:02" }
        mac := ⟨2, 0, 0, 0, 0, 1⟩
        peer := ⟨2, 0, 0, 0, 0, 2⟩
        link := {} }
    let device : Endpoint :=
      { settings := { srcMac := "02:00:00:00:00:02", dstMac := "02:00:00:00:00:01" }
        mac := ⟨2, 0, 0, 0, 0, 2⟩
        peer := ⟨2, 0, 0, 0, 0, 1⟩
        link := {} }
    let own := e.frame 0x2000 [0, 0, 0, 0] 1 0x10
    let reply := device.frame 0x2000 [0, 0, 0, 0] 1 0x10 ++ [0xAB]
    let quiet := e.hearing [.now reply]
    let noisy := e.hearing [{}, .now own, .now reply, .now own]
    let read : Operation := .batch [[0, 0, 0, 0]] 0x2000 .read 0x10
    e.settings.validateFrames = true ∧ e.mac ≠ e.peer ∧ e.SendsOwn own ∧
      (noisy.perform? read).map Step.report = (quiet.perform? read).map Step.report ∧
      ∃ t, noisy.perform? read = some t ∧ Link.received own ∉ Call.counted t.calls := by
  intro e device own reply quiet noisy read
  have hother : e.mac ≠ e.peer := by decide
  have hown : e.SendsOwn own := by
    refine .inr ⟨[[0, 0, 0, 0]], 0x2000, .read, 0x10, ?_⟩
    rw [e.offered_dispatch (by simp [Sendable, Request.maxPayload])]
    exact List.mem_singleton.2 rfl
  obtain ⟨hnoise, -⟩ := (noise_is_overlooked quiet).2 rfl hother e.link e.phase own hown
  obtain ⟨-, hcounted⟩ := (noise_is_overlooked noisy).2 rfl hother e.link e.phase own hown
  have hnoisier : Link.Noisier (quiet.recognizes read.awaited) quiet.link.idle
      quiet.link.pending noisy.link.pending :=
    .put ⟨rfl, fun f hf => by cases hf⟩
      (.put (hnoise _) (.keep (.now reply) (.put (hnoise _) .nil)))
  exact ⟨rfl, hother, hown, (noise_is_overlooked quiet).1 read _ hnoisier, _, rfl,
    hcounted read _ rfl⟩

end Endpoint

end RemoteMemory
