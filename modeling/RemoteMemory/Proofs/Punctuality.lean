/-
# Waits keep their deadline

The deadline loops of `SPEC_FULL.md`, section 5.

A wait polls only while time is left, so it ends within the time of its last poll after the
deadline.  Neither noise nor frames that take no time can keep it going: each of them uses up an
event of the script, and behind the script every poll takes the time of an idle one
(`Link.mul_idle_le_clock`).  There are thus at most as many polls as events, and as idle polls
that begin in the timeout (`Endpoint.MakesPolls.le_pending_add`); how these mix does not matter.

What holds of the time of a wait is `Endpoint.KeepsDeadline`; the main statement is that it holds
of every wait over a link whose idle polls take time (`Endpoint.waits_keep_deadline`).
-/

import Mathlib
import RemoteMemory.Proofs.Frame
import RemoteMemory.Proofs.Step

namespace RemoteMemory

/-- Behind what is pending every poll takes the time of an idle one. -/
theorem Link.mul_idle_le_clock (l : Link) (k : ℕ) :
    k * l.idle ≤ l.clock (l.pending.length + k) := by
  induction k with
  | zero => exact (Nat.zero_mul _).le.trans (Nat.zero_le _)
  | succ k ih =>
    have hidle : (l.arrival (l.pending.length + k)).micros = l.idle := by
      rw [arrival, List.getElem?_eq_none (Nat.le_add_right _ k)]
    rw [← Nat.add_assoc, clock, hidle, Nat.succ_mul]
    exact Nat.add_le_add_right ih _

namespace Endpoint

section Polls

variable (e : Endpoint) (opcode tag : UInt8)

@[simp] theorem length_polls (k : ℕ) : (e.polls opcode tag k).length = k := by
  rw [polls, List.length_map, List.length_range]

theorem take_polls {i k : ℕ} (h : i ≤ k) :
    (e.polls opcode tag k).take i = e.polls opcode tag i := by
  obtain ⟨j, rfl⟩ := Nat.exists_eq_add_of_le h
  rw [polls_add, List.take_left' (e.length_polls opcode tag i)]

/-- The time that polls take is where the clock is after them. -/
theorem elapsed_polls (k : ℕ) : Call.elapsed (e.polls opcode tag k) = e.link.clock k := by
  induction k with
  | zero => rfl
  | succ k ih =>
    rw [polls_succ, Call.elapsed_append, ih]
    rfl

end Polls

/-- **A wait makes no more polls than there are events, and idle polls that begin in the
timeout.** -/
theorem MakesPolls.le_pending_add {e : Endpoint} {opcode tag : UInt8} {wanted timeout k : ℕ}
    (h : e.MakesPolls opcode tag wanted timeout k) (hidle : 0 < e.link.idle) :
    k ≤ e.link.pending.length + timeout ⌈/⌉ e.link.idle := by
  by_contra hmore
  obtain ⟨-, hearly, -⟩ := h.going (e.link.pending.length + timeout ⌈/⌉ e.link.idle) (by omega)
  have hlate : timeout ≤ timeout ⌈/⌉ e.link.idle * e.link.idle :=
    (le_smul_ceilDiv hidle).trans (Nat.mul_comm _ _).le
  have hclock := e.link.mul_idle_le_clock (timeout ⌈/⌉ e.link.idle)
  omega

/-- A wait for so many replies over a link, as a step that answers whether all came, keeps its
deadline. -/
structure KeepsDeadline (l : Link) (wanted timeout : ℕ) (s : Step Bool) : Prop where
  /-- It ends, with all replies or without. -/
  ended : s.endpoint.phase = if s.result then .completed else .timedOut
  onlyPolls : (Call.arrivals s.calls).length = s.calls.length
  /-- There are at most as many polls as events, and as idle polls that begin in the timeout. -/
  atMost : s.calls.length ≤ l.pending.length + timeout ⌈/⌉ l.idle
  /-- Every poll begins before the deadline. -/
  begins : ∀ i < s.calls.length, Call.elapsed (s.calls.take i) < timeout
  /-- Without all replies it does not end before the deadline. -/
  notEarly : s.result = false → timeout ≤ Call.elapsed s.calls
  /-- Only its last poll can pass the deadline. -/
  notLate : ∀ last ∈ (Call.arrivals s.calls).getLast?, Call.elapsed s.calls < timeout + last.micros
  unpolled : s.calls = [] ↔ timeout = 0 ∨ wanted = 0
  atOnce : timeout = 0 ∨ wanted = 0 → Call.elapsed s.calls = 0

theorem keepsDeadline_await {e : Endpoint} (hidle : 0 < e.link.idle) (phase : Phase)
    (opcode tag : UInt8) (wanted timeout : ℕ) :
    KeepsDeadline e.link wanted timeout (e.await phase opcode tag wanted timeout) := by
  obtain ⟨k, hk, hspec⟩ := e.await_spec phase opcode tag wanted timeout
  have hend := hk.enough_or_late hidle
  have hnone : k = 0 ↔ timeout = 0 ∨ wanted = 0 := by
    have hbegin := (makesPolls_iff hidle).1 hk 0
    have htally : e.tally opcode tag 0 = 0 := rfl
    have hclock : e.link.clock 0 = 0 := rfl
    omega
  have hended := phase_await hidle phase opcode tag wanted timeout
  rw [hspec] at hended ⊢
  constructor
  case ended => exact hended
  case onlyPolls => rw [arrivals_polls, List.length_map, List.length_range, length_polls]
  case atMost =>
    rw [length_polls]
    exact hk.le_pending_add hidle
  case begins =>
    intro i hi
    rw [length_polls] at hi
    rw [take_polls e opcode tag hi.le, elapsed_polls]
    exact (hk.going i hi).2.1
  case notEarly =>
    intro hmissing
    rw [elapsed_polls]
    exact hend.resolve_left (of_decide_eq_false hmissing)
  case notLate =>
    intro last hlast
    rw [elapsed_polls]
    cases k with
    | zero => cases hlast
    | succ k =>
      rw [arrivals_polls, List.range_succ, List.map_append, List.map_singleton,
        List.getLast?_concat, Option.mem_some_iff] at hlast
      rw [← hlast, Link.clock]
      exact Nat.add_lt_add_right (hk.going k (Nat.lt_succ_self k)).2.1 _
  case unpolled => rw [← List.length_eq_zero_iff, length_polls, hnone]
  case atOnce =>
    intro hnothing
    rw [elapsed_polls, hnone.2 hnothing]
    rfl

/-- **Waits keep their deadline.**  Over a link whose idle polls take time a wait ends, after at
most as many polls as there are events, and idle polls that begin in the timeout.  No poll begins
at the deadline or behind it; so a wait with a poll is over before the time of its last poll has
passed behind the deadline, and one that lacks a reply not before the deadline itself.  Without
time or with nothing to wait for there is no poll, and no time passes.  A wait for more replies
than fit into a buffer has no answer. -/
theorem waits_keep_deadline (e : Endpoint) (hidle : 0 < e.link.idle) (timeout expected : ℕ)
    (tag : UInt8) :
    KeepsDeadline e.link 1 timeout (e.waitAck timeout tag) ∧
    if 226 * expected < 2 ^ 63 then
      ∃ s, e.waitRead? timeout expected tag = some s ∧
        KeepsDeadline e.link expected timeout (s.map ReadResult.completed)
    else e.waitRead? timeout expected tag = none := by
  refine ⟨keepsDeadline_await hidle .awaitingAck _ tag 1 timeout, ?_⟩
  split_ifs with hfits
  · exact ⟨_, if_pos (fits_replies_iff.2 hfits),
      keepsDeadline_await hidle .awaitingRead _ tag expected timeout⟩
  · exact if_neg (mt fits_replies_iff.1 hfits)

/-- Three frames that take no time, and then idle polls: the bound on the polls is met, and the
last of them ends 200 microseconds behind the deadline. -/
theorem waits_keep_deadline_through_noise :
    let noise : Octets :=
      ({ settings := { srcMac := "02:00:00:00:00:02" }
         mac := ⟨2, 0, 0, 0, 0, 2⟩
         peer := .zero
         link := {} } : Endpoint).frame 0x2000 [0] 3 0x0F
    let e : Endpoint :=
      { settings := { dstMac := "02:00:00:00:00:02" }
        mac := .zero
        peer := ⟨2, 0, 0, 0, 0, 2⟩
        link :=
          { pending := [{ frame := some noise }, { frame := some [0xFF] }, { frame := some noise }]
            idle := 300 } }
    0 < e.link.idle ∧ 226 * 2 < 2 ^ 63 ∧
      KeepsDeadline e.link 1 1000 (e.waitAck 1000 0x10) ∧
      (e.waitAck 1000 0x10).calls.length = e.link.pending.length + 1000 ⌈/⌉ e.link.idle ∧
      Call.elapsed (e.waitAck 1000 0x10).calls = 1200 ∧
      ∃ s, e.waitRead? 1000 2 0x10 = some s ∧
        KeepsDeadline e.link 2 1000 (s.map ReadResult.completed) := by
  intro noise e
  obtain ⟨hack, hread⟩ := e.waits_keep_deadline (by decide) 1000 2 0x10
  rw [if_pos (by decide)] at hread
  have hseven : e.MakesPolls 3 0x10 1 1000 7 := ⟨by decide +kernel, by decide +kernel⟩
  have hcalls : (e.waitAck 1000 0x10).calls = e.polls 3 0x10 7 :=
    congrArg Step.calls (hseven.await_eq .awaitingAck)
  refine ⟨by decide, by decide, hack, ?_, ?_, hread⟩
  · rw [hcalls, length_polls, Nat.ceilDiv_eq_add_pred_div]
    show 7 = 3 + (1000 + 300 - 1) / 300
    rfl
  · rw [hcalls, elapsed_polls]
    decide +kernel

/-- A wait for more replies than any buffer holds keeps no deadline: it has no answer. -/
theorem oversized_wait_keeps_no_deadline :
    let e : Endpoint :=
      { settings := { dstMac := "02:00:00:00:00:02" }
        mac := .zero
        peer := ⟨2, 0, 0, 0, 0, 2⟩
        link := {} }
    0 < e.link.idle ∧ ¬ ∃ s, e.waitRead? 1000 (2 ^ 63) 0x10 = some s ∧
      KeepsDeadline e.link (2 ^ 63) 1000 (s.map ReadResult.completed) := by
  refine ⟨by decide, ?_⟩
  rintro ⟨s, hs, -⟩
  obtain ⟨hfits, -⟩ := waitRead?_eq_some_iff.1 hs
  exact absurd hfits (by decide)

end Endpoint
end RemoteMemory
