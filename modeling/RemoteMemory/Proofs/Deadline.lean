/-
# Waiting until a deadline

`wait_ack` and `wait_read`, `SPEC_FULL.md`, section 4.5.

An event of a link begins when the events before it are over, at `Link.clock`.  A wait looks at
its deadline when an event begins, so it takes the events that begin in time as long as replies
are missing, and none else; how long the last of them takes does not matter.  Which events
those are is therefore read off the script alone, and so is all that a wait comes to:

| wait for | events taken | comes to |
| --- | --- | --- |
| an acknowledgment that is delivered in time | those up to it | completed |
| an acknowledgment that is not | those that begin in time | timed out |
| replies to a read, all delivered in time | those up to the last | completed |
| replies to a read, some not | those that begin in time | timed out, with the others |

The main statements are `Endpoint.waitAck_takes_first_reply` and
`Endpoint.waitRead?_gathers_replies`.  The data of a reply is that of its own frame, though all
frames are received into one buffer.
-/

import Mathlib
import RemoteMemory.Proofs.Frame
import RemoteMemory.Proofs.Reception

namespace RemoteMemory
namespace Endpoint

section Replies

variable (e : Endpoint) (opcode tag : UInt8)

/-- The frames of the first `k` events that the filter takes as they are received. -/
def replies (k : ℕ) : List Octets :=
  ((e.link.pending.take k).filterMap Arrival.frame).filter fun f =>
    e.accepts opcode tag (f.take 2048)

/-- Event `k` begins before the deadline and delivers a frame that the filter takes as it is
received. -/
def RepliesInTime (timeout k : ℕ) : Prop :=
  e.link.clock k < timeout ∧
    ∃ a f, e.link.pending[k]? = some a ∧ a.frame = some f ∧
      e.accepts opcode tag (f.take 2048) = true

/-- The replies are received one by one, each cut to the buffer. -/
theorem filter_delivered (k : ℕ) :
    (e.link.delivered k).filter (e.accepts opcode tag) =
      (e.replies opcode tag k).map (·.take 2048) := by
  have hcut : ((e.link.pending.take k).filterMap fun a => (Link.cut a).frame) =
      ((e.link.pending.take k).filterMap Arrival.frame).map (·.take 2048) :=
    List.map_filterMap.symm
  rw [Link.delivered_eq, hcut, List.filter_map]
  rfl

theorem length_replies (k : ℕ) : (e.replies opcode tag k).length = e.tally opcode tag k := by
  rw [tally_eq, List.countP_eq_length_filter, filter_delivered, List.length_map]

theorem replyAt_iff (k : ℕ) :
    e.replyAt opcode tag k = true ↔
      ∃ a f, e.link.pending[k]? = some a ∧ a.frame = some f ∧
        e.accepts opcode tag (f.take 2048) = true := by
  rw [replyAt, Link.arrival]
  cases hk : e.link.pending[k]? with
  | none => simp
  | some a =>
    cases hf : a.frame <;> simp [Link.cut, Link.bufferSize, hf]

theorem repliesInTime_iff (timeout k : ℕ) :
    e.RepliesInTime opcode tag timeout k ↔
      e.link.clock k < timeout ∧ e.replyAt opcode tag k = true := by
  rw [RepliesInTime, replyAt_iff]

end Replies

/-! ### Acknowledgments -/

section Ack

variable {e : Endpoint} {opcode tag : UInt8} {timeout k : ℕ}

/-- Events that begin in time and of which none brings a reply in time bring none. -/
theorem tally_eq_zero (hearly : ∀ j < k, e.link.clock j < timeout)
    (hnone : ∀ j < k, ¬ e.RepliesInTime opcode tag timeout j) : e.tally opcode tag k = 0 := by
  rw [tally, List.countP_eq_zero]
  intro j hj hreply
  rw [List.mem_range] at hj
  exact hnone j hj ((e.repliesInTime_iff ..).2 ⟨hearly j hj, hreply⟩)

/-- **The first reply in time ends a wait for one.** -/
theorem makesPolls_of_isLeast (hidle : 0 < e.link.idle)
    (h : IsLeast {k | e.RepliesInTime opcode tag timeout k} k) :
    e.MakesPolls opcode tag 1 timeout (k + 1) := by
  obtain ⟨hk, hfirst⟩ := h
  obtain ⟨hearly, hreply⟩ := (e.repliesInTime_iff ..).1 hk
  rw [makesPolls_iff hidle]
  intro j
  constructor
  · intro hj
    have hclock : ∀ i ≤ k, e.link.clock i < timeout := fun i hi =>
      (e.link.clock_mono hi).trans_lt hearly
    have hnone : e.tally opcode tag j = 0 := by
      refine tally_eq_zero (fun i hi => hclock i (by omega)) fun i hi hreplies => ?_
      have := hfirst hreplies
      omega
    exact ⟨by omega, hclock j (by omega)⟩
  · rintro ⟨hmissing, -⟩
    by_contra hj
    have hmono := e.tally_mono opcode tag (Nat.le_of_not_lt hj)
    rw [tally_succ, if_pos hreply] at hmono
    omega

/-- Where no reply comes in time, a wait for one polls all events that begin in time. -/
theorem lt_iff_of_no_reply (hidle : 0 < e.link.idle)
    (hnone : ¬ ∃ k, e.RepliesInTime opcode tag timeout k)
    (hk : e.MakesPolls opcode tag 1 timeout k) (j : ℕ) :
    (j < k ↔ e.link.clock j < timeout) := by
  rw [(makesPolls_iff hidle).1 hk j, and_iff_right_iff_imp]
  intro hearly
  have hno : e.tally opcode tag j = 0 :=
    tally_eq_zero (fun i hi => (e.link.clock_mono hi.le).trans_lt hearly)
      fun i _ hreplies => hnone ⟨i, hreplies⟩
  omega

theorem waitAck_of_isLeast (hidle : 0 < e.link.idle)
    (h : IsLeast {k | e.RepliesInTime e.settings.ackOpcode tag timeout k} k) :
    e.waitAck timeout tag =
      { result := true
        endpoint := (e.afterPolls (k + 1)).enter .completed
        calls := e.polls e.settings.ackOpcode tag (k + 1) } := by
  have hcame : 1 ≤ e.tally e.settings.ackOpcode tag (k + 1) := by
    obtain ⟨-, hreply⟩ := (e.repliesInTime_iff ..).1 h.1
    rw [tally_succ, if_pos hreply]
    omega
  refine ((makesPolls_of_isLeast hidle h).await_eq .awaitingAck).trans ?_
  simp only [hcame, decide_true, if_true]

theorem exists_waitAck_of_no_reply (hidle : 0 < e.link.idle)
    (h : ¬ ∃ k, e.RepliesInTime e.settings.ackOpcode tag timeout k) :
    ∃ k, (∀ j, j < k ↔ e.link.clock j < timeout) ∧
      e.waitAck timeout tag =
        { result := false
          endpoint := (e.afterPolls k).enter .timedOut
          calls := e.polls e.settings.ackOpcode tag k } := by
  obtain ⟨k, hk, hspec⟩ := e.waitAck_spec timeout tag
  have hpolled := lt_iff_of_no_reply hidle h hk
  have hlate : timeout ≤ e.link.clock k :=
    Nat.le_of_not_lt (mt (hpolled k).2 (lt_irrefl k))
  have hnone : ¬ 1 ≤ e.tally e.settings.ackOpcode tag k := by
    have hzero : e.tally e.settings.ackOpcode tag k = 0 :=
      tally_eq_zero (fun j => (hpolled j).1) fun j _ hreplies => h ⟨j, hreplies⟩
    omega
  refine ⟨k, hpolled, hspec.trans ?_⟩
  simp only [hnone, hlate, decide_false, if_false, if_true]

/-- **The first acknowledgment in time is taken.**  Over a link whose idle polls take time, a
wait for an acknowledgment succeeds exactly if some event begins before the deadline and
delivers a frame that the filter takes for one.  The wait has polled the events up to the first
such event then, however long that one takes, and ends completed; the others stay pending.
Where there is no such event it has polled exactly the events that begin before the deadline,
and ends timed out. -/
theorem waitAck_takes_first_reply (e : Endpoint) (hidle : 0 < e.link.idle) (timeout : ℕ)
    (tag : UInt8) :
    ((e.waitAck timeout tag).result = true ↔
      ∃ k, e.RepliesInTime e.settings.ackOpcode tag timeout k) ∧
    (∀ k, IsLeast {k | e.RepliesInTime e.settings.ackOpcode tag timeout k} k →
      e.waitAck timeout tag =
        { result := true
          endpoint := (e.afterPolls (k + 1)).enter .completed
          calls := e.polls e.settings.ackOpcode tag (k + 1) }) ∧
    ((¬ ∃ k, e.RepliesInTime e.settings.ackOpcode tag timeout k) →
      ∃ k, (∀ j, j < k ↔ e.link.clock j < timeout) ∧
        e.waitAck timeout tag =
          { result := false
            endpoint := (e.afterPolls k).enter .timedOut
            calls := e.polls e.settings.ackOpcode tag k }) := by
  refine ⟨⟨fun hcame => ?_, fun hreply => ?_⟩, fun k hk => waitAck_of_isLeast hidle hk,
    exists_waitAck_of_no_reply hidle⟩
  · by_contra hnone
    obtain ⟨k, -, hfailed⟩ := exists_waitAck_of_no_reply hidle hnone
    rw [hfailed] at hcame
    cases hcame
  · classical
    have hfirst : IsLeast {k | e.RepliesInTime e.settings.ackOpcode tag timeout k}
        (Nat.find hreply) := ⟨Nat.find_spec hreply, fun k hk => Nat.find_min' hreply hk⟩
    rw [waitAck_of_isLeast hidle hfirst]

/-- An acknowledgment behind an idle poll and one for another tag, delivered by an event that
begins in time and ends late; and none, where the deadline is the end of the idle poll. -/
theorem waitAck_takes_first_reply_across_deadline :
    let ack : UInt8 → Octets := fun tag =>
      ({ settings := { srcMac := "02:00:00:00:00:02" }
         mac := ⟨2, 0, 0, 0, 0, 2⟩
         peer := .zero
         link := {} } : Endpoint).frame 0x2000 [0] 3 tag
    let e : Endpoint :=
      { settings := { dstMac := "02:00:00:00:00:02" }
        mac := .zero
        peer := ⟨2, 0, 0, 0, 0, 2⟩
        link :=
          { pending :=
              [{ micros := 40 }, { micros := 0, frame := some (ack 0x0F) },
                { micros := 1000, frame := some (ack 0x10) },
                { micros := 0, frame := some (ack 0x10) }] } }
    0 < e.link.idle ∧
      IsLeast {k | e.RepliesInTime e.settings.ackOpcode 0x10 41 k} 2 ∧
      (e.waitAck 41 0x10).result = true ∧
      (e.waitAck 41 0x10).endpoint.link.pending = [{ micros := 0, frame := some (ack 0x10) }] ∧
      (¬ ∃ k, e.RepliesInTime e.settings.ackOpcode 0x10 40 k) ∧
      (e.waitAck 40 0x10).endpoint.phase = .timedOut := by
  intro ack e
  obtain ⟨-, hfirst, -⟩ := e.waitAck_takes_first_reply (by decide) 41 0x10
  obtain ⟨hiff, -, hlate⟩ := e.waitAck_takes_first_reply (by decide) 40 0x10
  have hleast : IsLeast {k | e.RepliesInTime e.settings.ackOpcode 0x10 41 k} 2 := by
    refine ⟨(e.repliesInTime_iff ..).2 ⟨by decide +kernel, by decide +kernel⟩, fun k hk => ?_⟩
    obtain ⟨-, hreply⟩ := (e.repliesInTime_iff ..).1 hk
    by_contra hbefore
    interval_cases k
    · exact absurd hreply (by decide +kernel)
    · exact absurd hreply (by decide +kernel)
  have hnone : ¬ ∃ k, e.RepliesInTime e.settings.ackOpcode 0x10 40 k := by
    rintro ⟨k, hk⟩
    obtain ⟨hearly, hreply⟩ := (e.repliesInTime_iff ..).1 hk
    cases k with
    | zero => exact absurd hreply (by decide +kernel)
    | succ k =>
      have hclock : e.link.clock 1 ≤ e.link.clock (k + 1) := e.link.clock_mono (by omega)
      have hidle : e.link.clock 1 = 40 := by decide +kernel
      omega
  obtain ⟨k, -, htimedOut⟩ := hlate hnone
  refine ⟨by decide, hleast, ?_, ?_, hnone, ?_⟩
  · rw [hfirst 2 hleast]
  · rw [hfirst 2 hleast]
    rfl
  · rw [htimedOut]
    rfl

end Ack

/-! ### Replies to a read -/

/-- A step gathers the replies to a read from the first `k` events. -/
structure Gathers (e : Endpoint) (timeout expected : ℕ) (tag : UInt8) (s : Step ReadResult)
    (k : ℕ) : Prop where
  /-- The events polled are those that begin while replies are missing and time is left. -/
  polled : ∀ j, j < k ↔ (e.replies 1 tag j).length < expected ∧ e.link.clock j < timeout
  calls : s.calls = e.polls 1 tag k
  atMost : (e.replies 1 tag k).length ≤ expected
  completed : s.result.completed = true ↔ (e.replies 1 tag k).length = expected
  endpoint : s.endpoint =
    (e.afterPolls k).enter (if s.result.completed then .completed else .timedOut)
  /-- The data of a reply is that of its own frame, as it was received. -/
  responses : s.result.responses =
    (e.replies 1 tag k).map fun f => Octets.resize 226 ((f.take 2048).drop 30)

namespace Gathers

variable {e : Endpoint} {timeout expected : ℕ} {tag : UInt8} {s : Step ReadResult} {k : ℕ}

/-- Where no reply is expected, all have come before the first poll. -/
theorem of_nothing_expected (h : e.Gathers timeout 0 tag s k) :
    k = 0 ∧ s.result.completed = true := by
  have hk : ¬ 0 < k := fun hpos => absurd ((h.polled 0).1 hpos).1 (Nat.not_lt_zero _)
  exact ⟨by omega, h.completed.2 (Nat.le_zero.1 h.atMost)⟩

/-- A reply that ends with its headers has zeros for data. -/
theorem response_of_short (h : e.Gathers timeout expected tag s k) {i : ℕ} {f : Octets}
    (hf : (e.replies 1 tag k)[i]? = some f) (hshort : f.length ≤ 30) :
    s.result.responses[i]? = some (List.replicate 226 0) := by
  have hnothing : (f.take 2048).drop 30 = [] := by
    rw [List.drop_eq_nil_iff, List.length_take]
    omega
  rw [h.responses, List.getElem?_map, hf, Option.map_some, hnothing]
  rfl

end Gathers

theorem exists_gathers {e : Endpoint} (hidle : 0 < e.link.idle) (timeout expected : ℕ)
    (tag : UInt8) : ∃ k, e.Gathers timeout expected tag (e.gather timeout expected tag) k := by
  obtain ⟨k, hk, hspec⟩ := e.gather_spec timeout expected tag
  have hlength : ∀ j, (e.replies 1 tag j).length = e.tally Request.Opcode.read.value tag j :=
    fun j => e.length_replies 1 tag j
  have hle := hk.tally_le
  refine ⟨k, fun j => ?_, ?_, ?_, ?_, ?_, ?_⟩
  · rw [hlength]
    exact (makesPolls_iff hidle).1 hk j
  · rw [hspec]
    rfl
  · rw [hlength]
    exact hle
  · rw [hspec, hlength]
    simp only [decide_eq_true_iff]
    omega
  · rw [hspec]
    simp only [decide_eq_true_iff]
    rcases hk.enough_or_late hidle with henough | hlate
    · simp only [henough, if_true]
    · simp only [hlate, if_true]
  · rw [hspec, filter_delivered, List.map_map]
    rfl

/-- **The replies in time are gathered.**  Over a link whose idle polls take time, a wait for
the replies to a read polls the events that begin while replies are missing and time is left.
It answers the data of the replies among them, one for each, in order and each from its own
frame, though all are received into one buffer; they are never more than expected.  It ends
completed if they are as many, and else timed out with those that came.  A wait for more replies
than fit into a buffer has no answer. -/
theorem waitRead?_gathers_replies (e : Endpoint) (hidle : 0 < e.link.idle)
    (timeout expected : ℕ) (tag : UInt8) :
    if 226 * expected < 2 ^ 63 then
      ∃ s k, e.waitRead? timeout expected tag = some s ∧
        e.Gathers timeout expected tag s k ∧
        (expected = 0 → k = 0 ∧ s.result.completed = true) ∧
        (∀ (i : ℕ) (f : Octets), (e.replies 1 tag k)[i]? = some f → f.length ≤ 30 →
          s.result.responses[i]? = some (List.replicate 226 0)) ∧
        ∀ buffer : Octets, buffer.length = 2048 →
          e.gatherInto buffer timeout expected tag = (s.result, s.endpoint)
    else e.waitRead? timeout expected tag = none := by
  split_ifs with hfits
  · obtain ⟨k, hk⟩ := exists_gathers hidle timeout expected tag
    refine ⟨_, k, if_pos (fits_replies_iff.2 hfits), hk, ?_,
      fun i f hf hshort => hk.response_of_short hf hshort,
      fun buffer hbuffer => e.gatherInto_eq hbuffer timeout expected tag⟩
    rintro rfl
    exact hk.of_nothing_expected
  · exact if_neg (mt fits_replies_iff.1 hfits)

/-- A reply with data behind a frame for another tag, and one that ends with its headers after
it: two replies come in time, the third event does not begin before the deadline. -/
theorem waitRead?_gathers_replies_partly :
    let reply : UInt8 → Octets → Octets := fun tag data =>
      ({ settings := { srcMac := "02:00:00:00:00:02" }
         mac := ⟨2, 0, 0, 0, 0, 2⟩
         peer := .zero
         link := {} } : Endpoint).frame 0x2000 [0] 1 tag ++ data
    let e : Endpoint :=
      { settings := { dstMac := "02:00:00:00:00:02" }
        mac := .zero
        peer := ⟨2, 0, 0, 0, 0, 2⟩
        link :=
          { pending :=
              [{ micros := 0, frame := some (reply 0x0F [0xAA, 0xBB]) },
                { micros := 40, frame := some (reply 0x10 [0xCC]) },
                { micros := 1000, frame := some (reply 0x10 []) },
                { micros := 0, frame := some (reply 0x10 [0xDD]) }] } }
    0 < e.link.idle ∧ 226 * 3 < 2 ^ 63 ∧
      ∃ s, e.waitRead? 41 3 0x10 = some s ∧ s.result.completed = false ∧
        s.result.responses = [0xCC :: List.replicate 225 0, List.replicate 226 0] ∧
        s.endpoint.link.pending = [{ micros := 0, frame := some (reply 0x10 [0xDD]) }] ∧
        s.endpoint.phase = .timedOut := by
  intro reply e
  have h := e.waitRead?_gathers_replies (by decide) 41 3 0x10
  rw [if_pos (by decide)] at h
  obtain ⟨s, k, hs, hgathers, -, -, -⟩ := h
  have hk : k = 3 := by
    have hbefore := (hgathers.polled 2).2 (by decide +kernel)
    have hafter := mt (hgathers.polled 3).1 (by decide +kernel)
    omega
  subst hk
  have hcompleted : s.result.completed = false := by
    rw [← Bool.not_eq_true, hgathers.completed]
    decide +kernel
  refine ⟨by decide, by decide, s, hs, hcompleted, ?_, ?_, ?_⟩
  · rw [hgathers.responses]
    decide +kernel
  · rw [hgathers.endpoint]
    rfl
  · rw [hgathers.endpoint, hcompleted]
    rfl

/-- A wait for more replies than any buffer holds does not time out: it has no answer. -/
theorem waitRead?_more_than_any_buffer :
    let e : Endpoint :=
      { settings := { dstMac := "02:00:00:00:00:02" }
        mac := .zero
        peer := ⟨2, 0, 0, 0, 0, 2⟩
        link := {} }
    0 < e.link.idle ∧ ¬ ∃ s, e.waitRead? 0 (2 ^ 63) 0x10 = some s ∧
      s.result.completed = false ∧ s.endpoint.phase = .timedOut := by
  refine ⟨by decide, ?_⟩
  rintro ⟨s, hs, -, -⟩
  obtain ⟨hfits, -⟩ := waitRead?_eq_some_iff.1 hs
  exact absurd hfits (by decide)

end Endpoint
end RemoteMemory
