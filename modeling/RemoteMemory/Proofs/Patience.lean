/-
# Waiting longer, and waiting in parts

`wait_ack` and `wait_read`, `SPEC_FULL.md`, section 4.5.

How often a wait polls is decided before each poll, by the replies still missing and the time
still left.  Two waits over one script therefore make the same polls up to where one of them
stops (`Endpoint.calls_await_prefix`), and a wait that got all it wants would not have polled
again with more time left (`Endpoint.await_of_came`).  So of what comes in time nothing is lost
by waiting longer (`Endpoint.longer_wait_loses_nothing`).

The same two facts split a wait: one for the first `m` of `m + n` replies stops where these have
come, and one for the other `n` polls on from there (`Endpoint.MakesPolls.exists_split`).  The
second has the whole timeout again and not what the first left of it, which does not matter where
`m + n` replies come in the time of one wait (`Endpoint.completed_read_splits`).
-/

import Mathlib
import RemoteMemory.Proofs.Frame
import RemoteMemory.Proofs.Step

namespace RemoteMemory
namespace Endpoint

section Longer

variable {e : Endpoint} {opcode tag : UInt8} {wanted timeout timeout' k : ℕ}

/-- Replies that all came in time end a wait that has more time, too. -/
theorem MakesPolls.of_enough (h : e.MakesPolls opcode tag wanted timeout k)
    (hall : wanted ≤ e.tally opcode tag k) (hlonger : timeout ≤ timeout') :
    e.MakesPolls opcode tag wanted timeout' k where
  going j hj := by
    obtain ⟨hmissing, hearly, hdelivers⟩ := h.going j hj
    exact ⟨hmissing, hearly.trans_le hlonger, hdelivers⟩
  ended := .inl hall

/-- **A wait for which all came is what it would be with more time.** -/
theorem await_of_came {phase : Phase}
    (hcame : (e.await phase opcode tag wanted timeout).result = true)
    (hlonger : timeout ≤ timeout') :
    e.await phase opcode tag wanted timeout' = e.await phase opcode tag wanted timeout := by
  obtain ⟨k, hk, hspec⟩ := e.await_spec phase opcode tag wanted timeout
  rw [hspec] at hcame
  have hall : wanted ≤ e.tally opcode tag k := of_decide_eq_true hcame
  rw [(hk.of_enough hall hlonger).await_eq phase, hspec]
  simp only [hall, if_true]

/-- **A wait begins with the polls of a shorter one.** -/
theorem calls_await_prefix (e : Endpoint) (phase : Phase) (opcode tag : UInt8) (wanted : ℕ)
    (hlonger : timeout ≤ timeout') :
    (e.await phase opcode tag wanted timeout).calls <+:
      (e.await phase opcode tag wanted timeout').calls := by
  obtain ⟨k, hk, hspec⟩ := e.await_spec phase opcode tag wanted timeout
  obtain ⟨k', hk', hspec'⟩ := e.await_spec phase opcode tag wanted timeout'
  rw [hspec, hspec']
  exact e.polls_prefix opcode tag (hk.mono hk' le_rfl hlonger)

/-- **Waiting longer loses nothing.**  A wait for an acknowledgment that comes is the same with
more time: it polls the same events, answers the same and leaves the same.  Of two waits for
replies the longer polls all that the shorter one polls, and its responses begin with those of
the shorter; they are one and the same if all replies came in the shorter time.  Whether there is
an answer does not depend on the time. -/
theorem longer_wait_loses_nothing (e : Endpoint) (hlonger : timeout ≤ timeout') (expected : ℕ)
    (tag : UInt8) :
    ((e.waitAck timeout tag).result = true → e.waitAck timeout' tag = e.waitAck timeout tag) ∧
    if 226 * expected < 2 ^ 63 then
      ∃ shorter longer, e.waitRead? timeout expected tag = some shorter ∧
        e.waitRead? timeout' expected tag = some longer ∧
        Call.arrivals shorter.calls <+: Call.arrivals longer.calls ∧
        shorter.result.responses <+: longer.result.responses ∧
        (shorter.result.completed = true → longer = shorter)
    else e.waitRead? timeout expected tag = none ∧ e.waitRead? timeout' expected tag = none := by
  refine ⟨fun hcame => await_of_came hcame hlonger, ?_⟩
  split_ifs with hfits
  · have hcalls := e.calls_await_prefix .awaitingRead Request.Opcode.read.value tag expected hlonger
    refine ⟨_, _, if_pos (fits_replies_iff.2 hfits), if_pos (fits_replies_iff.2 hfits),
      hcalls.filterMap _, (hcalls.filterMap _).map _, fun hcame => ?_⟩
    rw [gather, gather, await_of_came hcame hlonger]
  · have hfits' := mt fits_replies_iff.1 hfits
    exact ⟨if_neg hfits', if_neg hfits'⟩

/-- An acknowledgment behind one for another tag, and three replies of which the last does not
begin in 42 microseconds. -/
theorem longer_wait_loses_nothing_third_reply :
    let other : Endpoint :=
      { settings := { srcMac := "02:00:00:00:00:02" }
        mac := ⟨2, 0, 0, 0, 0, 2⟩
        peer := .zero
        link := {} }
    let reply : UInt8 → Octets := fun b => other.frame 0x2000 [0] 1 0x10 ++ [b]
    let data : UInt8 → Octets := fun b => b :: List.replicate 225 0
    let e : Endpoint :=
      { settings := { dstMac := "02:00:00:00:00:02" }
        mac := .zero
        peer := ⟨2, 0, 0, 0, 0, 2⟩
        link :=
          { pending :=
              [{ micros := 40, frame := some (other.frame 0x2000 [0] 3 0x0F) },
                { micros := 1, frame := some (other.frame 0x2000 [0] 3 0x10) },
                { micros := 0, frame := some (reply 0xAA) },
                { micros := 1000, frame := some (reply 0xBB) },
                { micros := 0, frame := some (reply 0xCC) }] } }
    42 ≤ 2000 ∧ (e.waitAck 42 0x10).result = true ∧
      e.waitAck 2000 0x10 = e.waitAck 42 0x10 ∧ 226 * 3 < 2 ^ 63 ∧
      ∃ shorter longer, e.waitRead? 42 3 0x10 = some shorter ∧
        e.waitRead? 2000 3 0x10 = some longer ∧
        shorter.result.responses = [data 0xAA, data 0xBB] ∧
        longer.result.responses = [data 0xAA, data 0xBB, data 0xCC] ∧
        shorter.result.responses <+: longer.result.responses := by
  intro other reply data e
  obtain ⟨hack, hread⟩ := e.longer_wait_loses_nothing (show 42 ≤ 2000 by decide) 3 0x10
  rw [if_pos (by decide)] at hread
  obtain ⟨shorter, longer, hs, hl, -, hprefix, -⟩ := hread
  have hacked : e.MakesPolls 3 0x10 1 42 2 := ⟨by decide +kernel, by decide +kernel⟩
  have htwo : e.MakesPolls 1 0x10 3 42 4 := ⟨by decide +kernel, by decide +kernel⟩
  have hthree : e.MakesPolls 1 0x10 3 2000 5 := ⟨by decide +kernel, by decide +kernel⟩
  have hcame : (e.waitAck 42 0x10).result = true := by
    refine (congrArg Step.result (hacked.await_eq .awaitingAck)).trans ?_
    decide +kernel
  refine ⟨by decide, hcame, hack hcame, by decide, shorter, longer, hs, hl, ?_, ?_, hprefix⟩
  · obtain ⟨-, rfl⟩ := waitRead?_eq_some_iff.1 hs
    rw [gather, show Request.Opcode.read.value = 1 from rfl, htwo.await_eq]
    decide +kernel
  · obtain ⟨-, rfl⟩ := waitRead?_eq_some_iff.1 hl
    rw [gather, show Request.Opcode.read.value = 1 from rfl, hthree.await_eq]
    decide +kernel

end Longer

section Split

variable {e : Endpoint} {opcode tag : UInt8} {m n timeout k : ℕ}

/-- **Polls that bring `m + n` replies are those of a wait for `m` and of one for `n` behind it.**
The second may take as long as both together. -/
theorem MakesPolls.exists_split (h : e.MakesPolls opcode tag (m + n) timeout k)
    (hall : m + n ≤ e.tally opcode tag k) :
    ∃ i j, k = i + j ∧
      e.MakesPolls opcode tag m timeout i ∧ m ≤ e.tally opcode tag i ∧
      (e.afterPolls i).MakesPolls opcode tag n timeout j ∧
      n ≤ (e.afterPolls i).tally opcode tag j := by
  obtain ⟨i, hi, -⟩ := e.await_spec .idle opcode tag m timeout
  have hik : i ≤ k := hi.mono h (Nat.le_add_right m n) le_rfl
  -- Before poll `k` there is time, so the first wait can only have stopped for its replies.
  have hfirst : m ≤ e.tally opcode tag i := by
    rcases hik.lt_or_eq with hlt | rfl
    · obtain ⟨-, hearly, hdelivers⟩ := h.going i hlt
      rcases hi.ended with henough | hlate | hsilent
      · exact henough
      · omega
      · exact absurd hsilent hdelivers
    · omega
  have hcount := hi.tally_le
  obtain ⟨j, rfl⟩ := Nat.exists_eq_add_of_le hik
  rw [tally_add] at hall
  have hrest : n ≤ (e.afterPolls i).tally opcode tag j := by omega
  refine ⟨i, j, rfl, hi, hfirst, ⟨fun p hp => ?_, .inl hrest⟩, hrest⟩
  obtain ⟨hmissing, hearly, hdelivers⟩ := h.going (i + p) (by omega)
  rw [tally_add] at hmissing
  rw [Link.clock_add] at hearly
  rw [← Link.after_after] at hdelivers
  exact ⟨by omega, (Nat.le_add_left _ _).trans_lt hearly, hdelivers⟩

/-- A wait for replies that all come, by its polls. -/
theorem MakesPolls.gather_eq (h : e.MakesPolls Request.Opcode.read.value tag n timeout k)
    (hall : n ≤ e.tally Request.Opcode.read.value tag k) :
    e.gather timeout n tag =
      { result :=
          { completed := true
            responses :=
              (Call.counted (e.polls Request.Opcode.read.value tag k)).map replyData }
        endpoint := (e.afterPolls k).enter .completed
        calls := e.polls Request.Opcode.read.value tag k } := by
  rw [gather, h.await_eq .awaitingRead]
  simp only [hall, decide_true, if_true, Step.map]

/-- **A completed read can be had in two parts.**  Where `m + n` replies come in the time of one
wait, a wait for `m` of them completes, and so does one for `n` of them from where the first ends.
Together they poll the events that the single wait polls, answer its responses in order, take its
time, and leave what it leaves. -/
theorem completed_read_splits {whole : Step ReadResult}
    (h : e.waitRead? timeout (m + n) tag = some whole) (hcame : whole.result.completed = true) :
    ∃ first second, e.waitRead? timeout m tag = some first ∧
      first.endpoint.waitRead? timeout n tag = some second ∧
      first.result.completed = true ∧ second.result.completed = true ∧
      first.result.responses ++ second.result.responses = whole.result.responses ∧
      Call.arrivals first.calls ++ Call.arrivals second.calls = Call.arrivals whole.calls ∧
      Call.elapsed first.calls + Call.elapsed second.calls = Call.elapsed whole.calls ∧
      second.endpoint = whole.endpoint := by
  obtain ⟨hfits, rfl⟩ := waitRead?_eq_some_iff.1 h
  obtain ⟨k, hk, hspec⟩ := e.gather_spec timeout (m + n) tag
  have hall : m + n ≤ e.tally Request.Opcode.read.value tag k := by
    rw [hspec] at hcame
    exact of_decide_eq_true hcame
  obtain ⟨i, j, rfl, hi, hfirst, hj, hsecond⟩ := hk.exists_split hall
  have hrest : ((e.afterPolls i).enter .completed).gather timeout n tag =
      (e.afterPolls i).gather timeout n tag := rfl
  refine ⟨_, _, if_pos (hfits.of_le (Nat.le_add_right m n)),
    if_pos (hfits.of_le (Nat.le_add_left n m)), ?_⟩
  rw [hi.gather_eq hfirst, hrest, hj.gather_eq hsecond, hk.gather_eq hall, polls_add]
  refine ⟨rfl, rfl, ?_, (Call.arrivals_append _ _).symm, (Call.elapsed_append _ _).symm, ?_⟩
  · rw [Call.counted_append, List.map_append]
  · simp only [afterPolls, enter, Link.after_after]

/-- Three replies, the first two behind other frames, as one and two. -/
theorem completed_read_splits_one_and_two :
    let other : Endpoint :=
      { settings := { srcMac := "02:00:00:00:00:02" }
        mac := ⟨2, 0, 0, 0, 0, 2⟩
        peer := .zero
        link := {} }
    let reply : UInt8 → UInt8 → Arrival := fun tag b =>
      { micros := 40, frame := some (other.frame 0x2000 [0] 1 tag ++ [b]) }
    let e : Endpoint :=
      { settings := { dstMac := "02:00:00:00:00:02" }
        mac := .zero
        peer := ⟨2, 0, 0, 0, 0, 2⟩
        link :=
          { pending :=
              [reply 0x0F 0x01, reply 0x10 0xAA, { micros := 1000 }, reply 0x10 0xBB,
                reply 0x10 0xCC, reply 0x10 0xDD] } }
    ∃ whole, e.waitRead? 1121 (1 + 2) 0x10 = some whole ∧ whole.result.completed = true ∧
      ∃ first second, e.waitRead? 1121 1 0x10 = some first ∧
        first.endpoint.waitRead? 1121 2 0x10 = some second ∧
        first.result.completed = true ∧ second.result.completed = true ∧
        first.result.responses ++ second.result.responses = whole.result.responses ∧
        Call.elapsed first.calls + Call.elapsed second.calls = 1160 ∧
        second.endpoint.link.pending = [reply 0x10 0xDD] := by
  intro other reply e
  have hthree : e.MakesPolls 1 0x10 (1 + 2) 1121 5 := ⟨by decide +kernel, by decide +kernel⟩
  have hall : 1 + 2 ≤ e.tally 1 0x10 5 := by decide +kernel
  have hwhole := hthree.gather_eq hall
  have hanswer : e.waitRead? 1121 (1 + 2) 0x10 = some (e.gather 1121 (1 + 2) 0x10) :=
    if_pos (by decide)
  have hcame : (e.gather 1121 (1 + 2) 0x10).result.completed = true := by rw [hwhole]
  obtain ⟨first, second, hfirst, hsecond, hcame₁, hcame₂, hresponses, -, helapsed, hend⟩ :=
    e.completed_read_splits hanswer hcame
  refine ⟨_, hanswer, hcame, first, second, hfirst, hsecond, hcame₁, hcame₂, hresponses, ?_, ?_⟩
  · rw [helapsed, hwhole]
    decide +kernel
  · rw [hend, hwhole]
    rfl

end Split

end Endpoint
end RemoteMemory
