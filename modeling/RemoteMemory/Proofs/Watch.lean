/-
# What a watch polls and counts

The deadline loops of `SPEC_FULL.md`, section 5.

A watch is polled again and again (`Watch.run_eq_iterate`), and after `k` polls all that
it knows is read off the sequence of arrivals (`Watch.iterate_poll`): the time left is the
timeout less `Link.clock k`, the replies missing are those wanted less `Endpoint.tally k`,
and its calls are `Endpoint.polls k`.  So a wait is described by the number of its polls
alone: `Endpoint.await_spec` gives it, with the condition that determines it
(`Endpoint.MakesPolls`), the result, the calls and the endpoint afterwards.

What a wait counts are the frames delivered by its polls that the filter takes, in order
(`counted_polls`), and how many they are is the tally (`tally_eq`).  Polls in a row are polls and
then polls of what these leave (`polls_add`), and who wants more or may take longer makes no fewer
(`MakesPolls.mono`).
-/

import Mathlib
import RemoteMemory.Endpoint.Watch

namespace RemoteMemory

namespace Link

variable (l : Link)

/-- The link after `k` polls. -/
def after (k : ℕ) : Link := { l with pending := l.pending.drop k }

theorem poll_snd : l.poll.2 = l.after 1 := by
  obtain ⟨pending, answers, idle⟩ := l
  cases pending <;> rfl

@[simp] theorem after_after (j k : ℕ) : (l.after j).after k = l.after (j + k) := by
  simp [after]

@[simp] theorem arrival_after (j k : ℕ) : (l.after j).arrival k = l.arrival (j + k) := by
  simp [after, arrival]

theorem clock_mono : Monotone l.clock :=
  monotone_nat_of_le_succ fun k => Nat.le_add_right (l.clock k) _

theorem clock_add (j k : ℕ) : l.clock (j + k) = l.clock j + (l.after j).clock k := by
  induction k with
  | zero => rfl
  | succ k ih => rw [← Nat.add_assoc, clock, ih, clock, arrival_after, Nat.add_assoc]

/-- The frames that the first `k` polls deliver, as they fit into the receive buffer. -/
def delivered (k : ℕ) : List Octets := (List.range k).filterMap fun i => (l.arrival i).frame

/-- Polls deliver what is pending, and nothing after that. -/
theorem delivered_eq (k : ℕ) :
    l.delivered k = (l.pending.take k).filterMap fun a => (cut a).frame := by
  induction k with
  | zero => rfl
  | succ k ih =>
    rw [delivered, List.range_succ, List.filterMap_append, List.take_add_one, List.filterMap_append]
    rw [show (List.range k).filterMap _ = l.delivered k from rfl, ih]
    cases hk : l.pending[k]? with
    | none => simp [arrival, hk]
    | some a => simp [arrival, hk, List.filterMap_cons]

end Link

namespace Endpoint

variable (e : Endpoint) (opcode tag : UInt8)

/-- The endpoint after `k` polls. -/
def afterPolls (k : ℕ) : Endpoint := { e with link := e.link.after k }

/-- Poll `k`, counted from 0, brings a reply. -/
def replyAt (k : ℕ) : Bool := (e.link.arrival k).frame.any (e.accepts opcode tag)

/-- How many of the first `k` polls bring a reply. -/
def tally (k : ℕ) : ℕ := (List.range k).countP (e.replyAt opcode tag)

/-- The calls of the first `k` polls. -/
def polls (k : ℕ) : List Call :=
  (List.range k).map fun i => .poll (e.link.arrival i) (e.replyAt opcode tag i)

theorem tally_succ (k : ℕ) :
    e.tally opcode tag (k + 1) =
      e.tally opcode tag k + if e.replyAt opcode tag k then 1 else 0 := by
  simp [tally, List.range_succ, List.countP_append, List.countP_singleton]

theorem tally_mono : Monotone (e.tally opcode tag) :=
  monotone_nat_of_le_succ fun k => by rw [tally_succ]; exact Nat.le_add_right _ _

theorem replyAt_afterPolls (j k : ℕ) :
    (e.afterPolls j).replyAt opcode tag k = e.replyAt opcode tag (j + k) := by
  rw [replyAt, replyAt, ← Link.arrival_after]
  rfl

theorem tally_add (j k : ℕ) :
    e.tally opcode tag (j + k) =
      e.tally opcode tag j + (e.afterPolls j).tally opcode tag k := by
  induction k with
  | zero => rfl
  | succ k ih =>
    rw [← Nat.add_assoc, tally_succ, ih, tally_succ, replyAt_afterPolls, Nat.add_assoc]

theorem polls_succ (k : ℕ) :
    e.polls opcode tag (k + 1) =
      e.polls opcode tag k ++ [.poll (e.link.arrival k) (e.replyAt opcode tag k)] := by
  simp [polls, List.range_succ]

/-- Polls are polls and then polls of what they leave. -/
theorem polls_add (j k : ℕ) :
    e.polls opcode tag (j + k) =
      e.polls opcode tag j ++ (e.afterPolls j).polls opcode tag k := by
  induction k with
  | zero => exact (List.append_nil _).symm
  | succ k ih =>
    rw [← Nat.add_assoc, polls_succ, ih, polls_succ, replyAt_afterPolls, List.append_assoc]
    simp only [afterPolls, Link.arrival_after]

theorem polls_prefix {j k : ℕ} (h : j ≤ k) : e.polls opcode tag j <+: e.polls opcode tag k := by
  obtain ⟨i, rfl⟩ := Nat.exists_eq_add_of_le h
  exact ⟨_, (e.polls_add opcode tag j i).symm⟩

@[simp] theorem offered_polls (k : ℕ) : Call.offered (e.polls opcode tag k) = [] := by
  simp [Call.offered, polls]

@[simp] theorem taken_polls (k : ℕ) : Call.taken (e.polls opcode tag k) = [] := by
  simp [Call.taken, polls]

@[simp] theorem arrivals_polls (k : ℕ) :
    Call.arrivals (e.polls opcode tag k) = (List.range k).map e.link.arrival := by
  simp [Call.arrivals, polls, List.filterMap_map]

/-- **The polls count the frames they deliver that the filter takes,** in order. -/
theorem counted_polls (k : ℕ) :
    Call.counted (e.polls opcode tag k) =
      (e.link.delivered k).filter (e.accepts opcode tag) := by
  induction k with
  | zero => rfl
  | succ k ih =>
    rw [polls_succ, Link.delivered, List.range_succ, List.filterMap_append, List.filter_append]
    rw [Call.counted, List.filterMap_append]
    refine congrArg₂ _ ih ?_
    cases hf : (e.link.arrival k).frame with
    | none => simp [replyAt, hf]
    | some f => cases ha : e.accepts opcode tag f <;> simp [replyAt, hf, ha]

theorem tally_eq (k : ℕ) :
    e.tally opcode tag k = (e.link.delivered k).countP (e.accepts opcode tag) := by
  induction k with
  | zero => rfl
  | succ k ih =>
    rw [tally_succ, ih, Link.delivered, Link.delivered, List.range_succ, List.filterMap_append,
      List.countP_append]
    congr 1
    cases hf : (e.link.arrival k).frame <;> simp [replyAt, hf, List.countP_singleton]

/-- As many frames are counted as the tally says. -/
theorem length_counted_polls (k : ℕ) :
    (Call.counted (e.polls opcode tag k)).length = e.tally opcode tag k := by
  rw [counted_polls, tally_eq, List.countP_eq_length_filter]

end Endpoint

namespace Watch

variable (opcode tag : UInt8)

/-- A watch that is polled once more: it wants replies, has time, and its link will
deliver something or let time pass. -/
def Goes (w : Watch) : Prop := 0 < w.missing ∧ 0 < w.left ∧ ¬ w.endpoint.link.Silent

variable {opcode tag} in
theorem run_of_goes {w : Watch} (h : w.Goes) :
    run opcode tag w = run opcode tag (w.poll opcode tag) := by
  rw [run]
  exact dif_pos h

variable {opcode tag} in
theorem run_of_not_goes {w : Watch} (h : ¬ w.Goes) : run opcode tag w = w := by
  rw [run]
  exact dif_neg h

/-- **A run is polls up to the first watch that does not go on.** -/
theorem run_eq_iterate (w : Watch) :
    ∃ k, run opcode tag w = (poll opcode tag)^[k] w ∧
      (∀ j < k, ((poll opcode tag)^[j] w).Goes) ∧ ¬ ((poll opcode tag)^[k] w).Goes := by
  fun_induction run opcode tag w with
  | case1 w hgoes ih =>
    obtain ⟨k, hrun, hbefore, hstop⟩ := ih
    refine ⟨k + 1, hrun, fun j hj => ?_, hstop⟩
    cases j with
    | zero => exact hgoes
    | succ j => exact hbefore j (by omega)
  | case2 w hstop => exact ⟨0, rfl, fun j hj => absurd hj (Nat.not_lt_zero j), hstop⟩

/-- **After `k` polls** a watch is what the first `k` arrivals make of it. -/
theorem iterate_poll (w : Watch) (k : ℕ) :
    (poll opcode tag)^[k] w =
      { endpoint := w.endpoint.afterPolls k
        left := w.left - w.endpoint.link.clock k
        missing := w.missing - w.endpoint.tally opcode tag k
        calls := (w.endpoint.polls opcode tag k).reverse ++ w.calls } := by
  induction k with
  | zero => rfl
  | succ k ih =>
    have harrival : (w.endpoint.link.after k).poll.1 = w.endpoint.link.arrival k := by simp
    have hlink : (w.endpoint.link.after k).poll.2 = w.endpoint.link.after (k + 1) := by
      rw [Link.poll_snd, Link.after_after]
    rw [Function.iterate_succ_apply', ih, Endpoint.polls_succ, Endpoint.tally_succ, Link.clock]
    simp only [poll, Endpoint.afterPolls, harrival, hlink, List.reverse_append, List.reverse_cons,
      List.reverse_nil, List.nil_append, List.cons_append, Nat.sub_sub]
    have hreply : (w.endpoint.link.arrival k).frame.any
        (({ w.endpoint with link := w.endpoint.link.after k } : Endpoint).accepts opcode tag) =
        w.endpoint.replyAt opcode tag k := rfl
    rw [hreply]
    cases w.endpoint.replyAt opcode tag k <;> simp

end Watch

namespace Endpoint

/-- A wait makes `k` polls: before each of them replies are missing, time is left and the
link is not silent, and after them one of the three has changed. -/
structure MakesPolls (e : Endpoint) (opcode tag : UInt8) (wanted timeout k : ℕ) : Prop where
  going : ∀ j < k, e.tally opcode tag j < wanted ∧ e.link.clock j < timeout ∧
    ¬ (e.link.after j).Silent
  ended : wanted ≤ e.tally opcode tag k ∨ timeout ≤ e.link.clock k ∨ (e.link.after k).Silent

section MakesPolls

variable {e : Endpoint} {opcode tag : UInt8} {wanted timeout k : ℕ}

/-- A wait does not count more than it wants. -/
theorem MakesPolls.tally_le (h : e.MakesPolls opcode tag wanted timeout k) :
    e.tally opcode tag k ≤ wanted := by
  cases k with
  | zero => exact Nat.zero_le _
  | succ k =>
    have := (h.going k (Nat.lt_succ_self k)).1
    rw [tally_succ]
    split_ifs <;> omega

/-- Where idle polls take time, polling ends with enough replies or after the deadline. -/
theorem MakesPolls.enough_or_late (h : e.MakesPolls opcode tag wanted timeout k)
    (hidle : 0 < e.link.idle) :
    wanted ≤ e.tally opcode tag k ∨ timeout ≤ e.link.clock k := by
  rcases h.ended with henough | hlate | hsilent
  · exact .inl henough
  · exact .inr hlate
  · have hafter : 0 < (e.link.after k).idle := hidle
    exact absurd hsilent (Link.not_silent_of_idle_pos hafter)

/-- A wait that wants no fewer replies and has no less time polls no less often. -/
theorem MakesPolls.mono {wanted' timeout' k' : ℕ} (h : e.MakesPolls opcode tag wanted timeout k)
    (h' : e.MakesPolls opcode tag wanted' timeout' k') (hwanted : wanted ≤ wanted')
    (htimeout : timeout ≤ timeout') : k ≤ k' := by
  by_contra hlt
  obtain ⟨hmissing, hearly, hdelivers⟩ := h.going k' (by omega)
  rcases h'.ended with henough | hlate | hsilent
  · omega
  · omega
  · exact hdelivers hsilent

/-- How often a wait polls is determined. -/
theorem MakesPolls.unique {k' : ℕ} (h : e.MakesPolls opcode tag wanted timeout k)
    (h' : e.MakesPolls opcode tag wanted timeout k') : k = k' :=
  le_antisymm (h.mono h' le_rfl le_rfl) (h'.mono h le_rfl le_rfl)

/-- **A wait polls exactly while replies are missing and time is left,** where idle polls take
time. -/
theorem makesPolls_iff (hidle : 0 < e.link.idle) :
    e.MakesPolls opcode tag wanted timeout k ↔
      ∀ j, j < k ↔ e.tally opcode tag j < wanted ∧ e.link.clock j < timeout := by
  constructor
  · intro h j
    constructor
    · intro hj
      obtain ⟨hmissing, hearly, -⟩ := h.going j hj
      exact ⟨hmissing, hearly⟩
    · rintro ⟨hmissing, hearly⟩
      by_contra hj
      rcases h.enough_or_late hidle with henough | hlate
      · have := e.tally_mono opcode tag (Nat.le_of_not_lt hj)
        omega
      · have := e.link.clock_mono (Nat.le_of_not_lt hj)
        omega
  · intro h
    refine ⟨fun j hj => ?_, ?_⟩
    · obtain ⟨hmissing, hearly⟩ := (h j).1 hj
      have hafter : 0 < (e.link.after j).idle := hidle
      exact ⟨hmissing, hearly, Link.not_silent_of_idle_pos hafter⟩
    · have hstop := mt (h k).2 (lt_irrefl k)
      omega

end MakesPolls

/-- **A wait is its polls.** -/
theorem await_spec (e : Endpoint) (phase : Phase) (opcode tag : UInt8) (wanted timeout : ℕ) :
    ∃ k, e.MakesPolls opcode tag wanted timeout k ∧
      e.await phase opcode tag wanted timeout =
        { result := decide (wanted ≤ e.tally opcode tag k)
          endpoint := (e.afterPolls k).enter
            (if wanted ≤ e.tally opcode tag k then .completed
              else if timeout ≤ e.link.clock k then .timedOut else phase)
          calls := e.polls opcode tag k } := by
  let w : Watch := { endpoint := e.enter phase, left := timeout, missing := wanted }
  obtain ⟨k, hrun, hbefore, hstop⟩ := w.run_eq_iterate opcode tag
  rw [Watch.iterate_poll] at hrun hstop
  have hend : ¬ (0 < wanted - e.tally opcode tag k ∧ 0 < timeout - e.link.clock k ∧
      ¬ (e.link.after k).Silent) := hstop
  refine ⟨k, ⟨fun j hj => ?_, ?_⟩, ?_⟩
  · have hgoes := hbefore j hj
    rw [Watch.iterate_poll] at hgoes
    have hm : 0 < wanted - e.tally opcode tag j := hgoes.1
    have hl : 0 < timeout - e.link.clock j := hgoes.2.1
    exact ⟨by omega, by omega, hgoes.2.2⟩
  · by_cases hsilent : (e.link.after k).Silent
    · exact .inr (.inr hsilent)
    · simp only [hsilent, not_false_iff, and_true] at hend
      omega
  · have hwatch : Watch.run opcode tag w =
        { endpoint := (e.afterPolls k).enter phase
          left := timeout - e.link.clock k
          missing := wanted - e.tally opcode tag k
          calls := (e.polls opcode tag k).reverse } := by
      rw [hrun, List.append_nil]
      rfl
    have hmissing : wanted - e.tally opcode tag k = 0 ↔ wanted ≤ e.tally opcode tag k := by omega
    have hleft : timeout - e.link.clock k = 0 ↔ timeout ≤ e.link.clock k := by omega
    change ({ result := (Watch.run opcode tag w).missing == 0
              endpoint := (Watch.run opcode tag w).settled
              calls := (Watch.run opcode tag w).calls.reverse } : Step Bool) = _
    rw [hwatch]
    simp only [Watch.settled, hmissing, hleft, List.reverse_reverse, Step.mk.injEq, and_true]
    constructor
    · rw [Bool.eq_iff_iff, beq_iff_eq, decide_eq_true_iff, hmissing]
    · split_ifs <;> rfl

/-- Polls that a wait makes are the wait. -/
theorem MakesPolls.await_eq {e : Endpoint} {opcode tag : UInt8} {wanted timeout k : ℕ}
    (h : e.MakesPolls opcode tag wanted timeout k) (phase : Phase) :
    e.await phase opcode tag wanted timeout =
      { result := decide (wanted ≤ e.tally opcode tag k)
        endpoint := (e.afterPolls k).enter
          (if wanted ≤ e.tally opcode tag k then .completed
            else if timeout ≤ e.link.clock k then .timedOut else phase)
        calls := e.polls opcode tag k } := by
  obtain ⟨k', hk', hspec⟩ := e.await_spec phase opcode tag wanted timeout
  obtain rfl := h.unique hk'
  exact hspec

/-- **A wait ends as it reports.** -/
theorem phase_await {e : Endpoint} (hidle : 0 < e.link.idle) (phase : Phase) (opcode tag : UInt8)
    (wanted timeout : ℕ) :
    (e.await phase opcode tag wanted timeout).endpoint.phase =
      if (e.await phase opcode tag wanted timeout).result then .completed else .timedOut := by
  obtain ⟨k, hk, hspec⟩ := e.await_spec phase opcode tag wanted timeout
  rw [hspec]
  change (if _ then Phase.completed else _) = _
  rcases hk.enough_or_late hidle with henough | hlate
  · simp only [henough, if_true, decide_true]
  · simp only [hlate, if_true, decide_eq_true_iff]

/-- A wait for an acknowledgment, by its polls. -/
theorem waitAck_spec (e : Endpoint) (timeout : ℕ) (tag : UInt8) :
    ∃ k, e.MakesPolls e.settings.ackOpcode tag 1 timeout k ∧
      e.waitAck timeout tag =
        { result := decide (1 ≤ e.tally e.settings.ackOpcode tag k)
          endpoint := (e.afterPolls k).enter
            (if 1 ≤ e.tally e.settings.ackOpcode tag k then .completed
              else if timeout ≤ e.link.clock k then .timedOut else .awaitingAck)
          calls := e.polls e.settings.ackOpcode tag k } :=
  e.await_spec .awaitingAck e.settings.ackOpcode tag 1 timeout

/-- A wait for the replies to a read, by its polls. -/
theorem gather_spec (e : Endpoint) (timeout expected : ℕ) (tag : UInt8) :
    ∃ k, e.MakesPolls Request.Opcode.read.value tag expected timeout k ∧
      e.gather timeout expected tag =
        { result :=
            { completed := decide (expected ≤ e.tally Request.Opcode.read.value tag k)
              responses := ((e.link.delivered k).filter
                (e.accepts Request.Opcode.read.value tag)).map replyData }
          endpoint := (e.afterPolls k).enter
            (if expected ≤ e.tally Request.Opcode.read.value tag k then .completed
              else if timeout ≤ e.link.clock k then .timedOut else .awaitingRead)
          calls := e.polls Request.Opcode.read.value tag k } := by
  obtain ⟨k, hk, hspec⟩ :=
    e.await_spec .awaitingRead Request.Opcode.read.value tag expected timeout
  refine ⟨k, hk, ?_⟩
  rw [gather, hspec]
  simp only [Step.map, counted_polls]

/-- Numbers of replies that fit into a buffer. -/
theorem fits_replies_iff {expected : ℕ} :
    Buffer.Fits expected Request.maxPayload ↔ 226 * expected < 2 ^ 63 := by
  unfold Buffer.Fits Buffer.maxSize Request.maxPayload
  omega

end Endpoint

end RemoteMemory
