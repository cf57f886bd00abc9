/-
# What an exchange over a wire comes to

`write`, `read` and `send_ack`, `SPEC_FULL.md`, section 4.5.

On a wire a frame is delivered at once, so a wait never runs out of time before it has
looked at all that is pending: it polls until it has counted what it wants, or until
nothing is pending any more (`Endpoint.MakesPolls.tally_eq_min`).  Its outcome is therefore
read off the frames pending when it begins, and nothing else: an acknowledgment comes
exactly if one is among them, and a read gets the first replies among them
(`Wire.exchange_outcome`).  A read of more fragments than a buffer holds replies is left out:
it has no answer.

An acknowledgment that the device puts on the wire is among them for as long as the host
has heard no more frames than were pending before it.
-/

import Mathlib
import RemoteMemory.Proofs.Run

namespace RemoteMemory

theorem Octets.resize_take {m n : ℕ} (h : n ≤ m) (bs : Octets) :
    resize n (bs.take m) = resize n bs := by
  simp only [resize, List.take_take, List.length_take, min_eq_left h]
  congr 2
  omega

theorem Link.Holds.frames {l : Link} {frames : List Octets} (h : l.Holds frames) :
    l.pending.filterMap Arrival.frame = frames := by
  rw [show l.pending = _ from h, List.filterMap_map]
  exact List.filterMap_some

/-- Delivery of what a link holds takes no time. -/
theorem Link.Holds.clock {l : Link} {frames : List Octets} (h : l.Holds frames) {k : ℕ}
    (hk : k ≤ frames.length) : l.clock k = 0 := by
  induction k with
  | zero => rfl
  | succ k ih =>
    have hnext : l.pending[k]? = some (.now frames[k]) := by
      rw [show l.pending = _ from h, List.getElem?_map, List.getElem?_eq_getElem hk]
      rfl
    rw [Link.clock, ih (by omega), arrival, hnext]
    rfl

namespace Endpoint

/-- The receive buffer holds the data of every reply. -/
theorem replyData_received (frame : Octets) :
    replyData (Link.received frame) = replyData frame := by
  rw [replyData, Link.received, List.drop_take]
  exact Octets.resize_take (by decide) _

section Wait

variable {e : Endpoint} {opcode tag : UInt8} {wanted timeout k : ℕ} {frames : List Octets}

theorem tally_of_holds (hl : e.link.Holds frames) (opcode tag : UInt8) (k : ℕ) :
    e.tally opcode tag k = (frames.take k).countP (e.accepts opcode tag) := by
  rw [tally_eq, List.countP_eq_length_filter, hl.filter_delivered (e.accepts_received opcode tag),
    List.length_map, List.countP_eq_length_filter]

/-- **A wait over what is delivered at once counts all that is there,** up to what it wants. -/
theorem MakesPolls.tally_eq_min (h : e.MakesPolls opcode tag wanted timeout k)
    (hl : e.link.Holds frames) (htime : 0 < timeout) (hidle : 0 < e.link.idle) :
    e.tally opcode tag k = min wanted (frames.countP (e.accepts opcode tag)) := by
  have hle := h.tally_le
  have hall : e.tally opcode tag k ≤ frames.countP (e.accepts opcode tag) := by
    rw [tally_of_holds hl]
    exact (List.take_sublist k frames).countP_le
  have hend : wanted ≤ e.tally opcode tag k ∨ frames.length ≤ k := by
    rcases h.ended with hdone | hlate | hsilent
    · exact .inl hdone
    · refine .inr (Nat.le_of_not_lt fun hk => ?_)
      rw [hl.clock hk.le] at hlate
      omega
    · exact absurd hsilent (Link.not_silent_of_idle_pos hidle)
  rcases hend with hdone | hgone
  · omega
  · rw [tally_of_holds hl, List.take_of_length_le hgone] at hle ⊢
    omega

/-- What a wait counts is the first of what is there. -/
theorem MakesPolls.filter_take (h : e.MakesPolls opcode tag wanted timeout k)
    (hl : e.link.Holds frames) (htime : 0 < timeout) (hidle : 0 < e.link.idle) :
    (frames.take k).filter (e.accepts opcode tag) =
      (frames.filter (e.accepts opcode tag)).take wanted := by
  have hlength : ((frames.take k).filter (e.accepts opcode tag)).length =
      min wanted (frames.filter (e.accepts opcode tag)).length := by
    rw [← List.countP_eq_length_filter, ← List.countP_eq_length_filter, ← tally_of_holds hl]
    exact h.tally_eq_min hl htime hidle
  have hfirst := List.prefix_iff_eq_take.1 ((List.take_prefix k frames).filter
    (e.accepts opcode tag))
  rw [hfirst, hlength]
  exact List.take_eq_take_min.symm

end Wait

variable {e : Endpoint} {frames : List Octets}

/-- **An acknowledgment comes exactly if it is there.** -/
theorem result_waitAck_iff (hl : e.link.Holds frames) (hidle : 0 < e.link.idle) {timeout : ℕ}
    (htime : 0 < timeout) (tag : UInt8) :
    (e.waitAck timeout tag).result = true ↔
      ∃ frame ∈ frames, e.accepts e.settings.ackOpcode tag frame = true := by
  obtain ⟨k, hk, hspec⟩ := e.waitAck_spec timeout tag
  rw [hspec, ← List.countP_pos_iff]
  simp only [decide_eq_true_iff, hk.tally_eq_min hl htime hidle]
  omega

/-- **A read gets the first replies that are there,** as many as it expects. -/
theorem result_gather (hl : e.link.Holds frames) (hidle : 0 < e.link.idle) {timeout : ℕ}
    (htime : 0 < timeout) (expected : ℕ) (tag : UInt8) :
    let replies := frames.filter (e.accepts Request.Opcode.read.value tag)
    (e.gather timeout expected tag).result =
      { completed := decide (expected ≤ replies.length)
        responses := (replies.take expected).map replyData } := by
  intro replies
  obtain ⟨k, hk, hspec⟩ := e.gather_spec timeout expected tag
  have hcompleted : expected ≤ e.tally Request.Opcode.read.value tag k ↔
      expected ≤ replies.length := by
    rw [hk.tally_eq_min hl htime hidle, List.countP_eq_length_filter, le_min_iff]
    exact and_iff_right le_rfl
  have hdata : replyData ∘ Link.received = replyData := funext replyData_received
  rw [hspec]
  simp only [hcompleted, hl.filter_delivered (e.accepts_received _ tag),
    hk.filter_take hl htime hidle, List.map_map, hdata]
  rfl

/-- **A write completes exactly if an acknowledgment is pending.** -/
theorem exists_outcome_write? (hl : e.link.Holds frames) (hidle : 0 < e.link.idle)
    (htime : 0 < e.settings.ackTimeout) {fragments : List Octets}
    (hf : ∀ f ∈ fragments, Sendable f) (address : UInt64) (tag : UInt8) :
    ∃ s outcome, e.write? fragments address tag = some s ∧ s.result = .ok outcome ∧
      (outcome.completed = true ↔
        ∃ frame ∈ frames, e.accepts e.settings.ackOpcode tag frame = true) := by
  rw [write?, e.batch?_eq hf]
  refine ⟨_, _, rfl, rfl, ?_⟩
  exact result_waitAck_iff (e := e.afterSending fragments.length) hl hidle htime tag

/-- **A read completes exactly if enough replies are pending,** and answers their data; it
has no answer if so many replies do not fit into a buffer. -/
theorem exists_outcome_read? (hl : e.link.Holds frames) (hidle : 0 < e.link.idle)
    (htime : 0 < e.settings.readTimeout) {length : ℕ}
    (hlength : 1 ≤ length ∧ length ≤ Request.maxPayload) (address : UInt64) (count : ℕ)
    (tag : UInt8) :
    let replies := frames.filter (e.accepts Request.Opcode.read.value tag)
    if 226 * count < 2 ^ 63 then
      ∃ s outcome, e.read? address length count tag = some s ∧ s.result = .ok outcome ∧
        (outcome.completed = true ↔ count ≤ replies.length) ∧
        outcome.responses = (replies.take count).map replyData
    else e.read? address length count tag = none := by
  intro replies
  have hf := sendable_of_mem_requests hlength count
  have hcount : (requests length count).length = count := List.length_replicate
  rw [e.read?_eq_batch?_of_sendable hlength]
  split_ifs with hfits
  · have hwait : (e.afterSending count).awaitAnswer? .read count tag =
        some ((e.afterSending count).gather e.settings.readTimeout count tag) :=
      if_pos (fits_replies_iff.2 hfits)
    have hanswer := result_gather (e := e.afterSending count) hl hidle htime count tag
    rw [e.batch?_eq hf, hcount, hwait]
    refine ⟨_, _, rfl, rfl, ?_⟩
    simp only [hanswer]
    exact ⟨decide_eq_true_iff, rfl⟩
  · rw [e.batch?_eq_none_iff hf, hcount]
    exact ⟨rfl, Nat.le_of_not_lt hfits⟩

/-- What an acknowledgment that the link takes puts on the wire. -/
theorem taken_of_sendAck {address : UInt64} {tag : UInt8} {s : Step Answer}
    (h : e.perform? (.sendAck address tag) = some s) (htaken : s.result = .ackSent (.ok true)) :
    Call.taken s.calls = [e.frame address [0] e.settings.ackOpcode tag] := by
  obtain rfl := Option.some.inj h
  rw [sendAck, frameFor_eq_ok (by decide)] at htaken ⊢
  have hoffer : e.link.offer.1 = true := Except.ok.inj (Answer.ackSent.inj htaken)
  simp [Step.map, send, Call.taken, hoffer]

end Endpoint

namespace Wire

/-- **An acknowledgment that the device puts on the wire** stays pending until the host has
heard all that was pending before it. -/
theorem exists_mem_pending_of_sendAck {w next last : Wire} {address : UInt64} {tag : UInt8}
    {s : Step Answer} {ds : List Deed} {frames : List Octets} (hw : w.host.link.Holds frames)
    (hstep : w.perform? .device (.sendAck address tag) = some (s, next))
    (htaken : s.result = .ackSent (.ok true)) (hrest : next.Reaches ds last)
    (hheard : (Deed.heard ds).length ≤ frames.length) :
    ∃ pending, last.host.link.Holds pending ∧
      w.device.frame address [0] w.device.settings.ackOpcode tag ∈ pending := by
  have hnext := holds_of_device hstep hw
  obtain ⟨hs, -⟩ := perform?_eq_some_iff.1 hstep
  rw [Endpoint.taken_of_sendAck hs htaken] at hnext
  refine ⟨_, (hrest.fifo hnext).2, ?_⟩
  rw [List.append_assoc, List.drop_append_of_le_length hheard]
  exact List.mem_append_right _ List.mem_cons_self

/-- **What an exchange over a wire comes to.**  After any run of both sides, from a wire with
nothing pending toward the host: a write of fragments that frames carry goes out, and it
completes exactly if a frame is pending that the host's filter takes for its
acknowledgment.  A read of so many fragments completes exactly if as many replies are
pending, and it answers the data of the first of them, in the order of the wire; a read of
more fragments than a buffer holds replies has no answer.

Where the two sides are set up for each other, an acknowledgment that the device's link takes
makes a write with its tag complete, whatever address it is for and whatever both sides do in
between, unless the host hears more frames than were pending before it. -/
theorem exchange_outcome (w₀ : Wire) (ops : List (Side × Operation))
    (hpending : w₀.host.link.pending = []) (hidle : 0 < w₀.host.link.idle)
    (hack : 0 < w₀.host.settings.ackTimeout) (hread : 0 < w₀.host.settings.readTimeout) :
    let w := (w₀.run ops).2
    let pending := w.host.link.pending.filterMap Arrival.frame
    (∀ fragments address tag, (∀ f ∈ fragments, 1 ≤ f.length ∧ f.length ≤ 226) →
      ∃ s outcome, w.host.write? fragments address tag = some s ∧ s.result = .ok outcome ∧
        (outcome.completed = true ↔
          ∃ frame ∈ pending, w.host.accepts w.host.settings.ackOpcode tag frame = true)) ∧
    (∀ address length count tag, 1 ≤ length ∧ length ≤ 226 →
      let replies := pending.filter (w.host.accepts 1 tag)
      if 226 * count < 2 ^ 63 then
        ∃ s outcome, w.host.read? address length count tag = some s ∧ s.result = .ok outcome ∧
          (outcome.completed = true ↔ count ≤ replies.length) ∧
          outcome.responses = (replies.take count).map Endpoint.replyData
      else w.host.read? address length count tag = none) ∧
    (w₀.device.mac = w₀.host.peer →
      w₀.device.settings.ethertype = w₀.host.settings.ethertype →
      w₀.device.settings.ackOpcode = w₀.host.settings.ackOpcode →
      ∀ address tag s next, w.perform? .device (.sendAck address tag) = some (s, next) →
        s.result = .ackSent (.ok true) →
      ∀ more, (Deed.heard (next.deeds more)).length ≤ pending.length →
      ∀ fragments address', (∀ f ∈ fragments, 1 ≤ f.length ∧ f.length ≤ 226) →
        ∃ t outcome, (next.run more).2.host.write? fragments address' tag = some t ∧
          t.result = .ok outcome ∧ outcome.completed = true) := by
  intro w pending
  have hreach : w₀.Reaches (w₀.deeds ops) w := w₀.reaches_run ops
  have hempty : w₀.host.link.Holds [] := hpending
  obtain ⟨frames, hframes⟩ : ∃ frames, w.host.link.Holds frames := ⟨_, (hreach.fifo hempty).2⟩
  have hpend : pending = frames := hframes.frames
  have hhost : w.host.SetUpLike w₀.host := hreach.setUpLike .host
  have hdevice : w.device.SetUpLike w₀.device := hreach.setUpLike .device
  have hidle' : 0 < w.host.link.idle := hhost.idle ▸ hidle
  rw [hpend]
  refine ⟨fun fragments address tag hf => ?_, fun address length count tag hlength => ?_, ?_⟩
  · exact Endpoint.exists_outcome_write? hframes hidle' (hhost.settings ▸ hack) hf address tag
  · exact Endpoint.exists_outcome_read? hframes hidle' (hhost.settings ▸ hread) hlength address
      count tag
  · intro hmac htype hopcode address tag s next hstep htaken more hheard fragments address' hf
    obtain ⟨pending', hholds, hmem⟩ :=
      exists_mem_pending_of_sendAck hframes hstep htaken (next.reaches_run more) hheard
    have hlast : (next.run more).2.host.SetUpLike w₀.host :=
      ((next.reaches_run more).setUpLike .host).trans
        ((setUpLike_of_perform? hstep .host).trans hhost)
    obtain ⟨t, outcome, ht, hok, hcompleted⟩ := Endpoint.exists_outcome_write? hholds
      (hlast.idle ▸ hidle) (hlast.settings ▸ hack) hf address' tag
    have hagree : w.device.settings.ackOpcode = (next.run more).2.host.settings.ackOpcode := by
      rw [hdevice.settings, hlast.settings, hopcode]
    refine ⟨t, outcome, ht, hok, hcompleted.2 ⟨_, hmem, ?_⟩⟩
    rw [hagree]
    exact Endpoint.accepts_frame (by rw [hdevice.mac, hlast.peer, hmac])
      (by rw [hdevice.settings, hlast.settings, htype]) ..

/-- A write whose acknowledgment is pending behind a frame of one octet, and a read of three
replies of which none is pending. -/
theorem exchange_outcome_behind_stray_frame :
    ∃ w₀ : Wire, create {} { dstMac := "02:00:00:00:00:02" } { srcMac := "02:00:00:00:00:02" } =
        .ok w₀ ∧
      let w := (w₀.run [(.device, .sendRaw [0xFF])]).2
      (∃ s next t outcome, w.perform? .device (.sendAck 0x2007 0x10) = some (s, next) ∧
        s.result = .ackSent (.ok true) ∧ next.host.write? [[0xAA]] 0x2007 0x10 = some t ∧
        t.result = .ok outcome ∧ outcome.completed = true) ∧
      ∃ s outcome, w.host.read? 0x2007 8 3 0x10 = some s ∧ s.result = .ok outcome ∧
        ¬ outcome.completed = true := by
  let w₀ : Wire :=
    { host :=
        { settings := { dstMac := "02:00:00:00:00:02" }
          mac := .zero
          peer := ⟨2, 0, 0, 0, 0, 2⟩
          link := {} }
      device :=
        { settings := { srcMac := "02:00:00:00:00:02" }
          mac := ⟨2, 0, 0, 0, 0, 2⟩
          peer := .zero
          link := {} } }
  have hhost := Endpoint.create_eq_ok_iff.2 ⟨rfl, rfl, show w₀.host.phase = .idle from rfl⟩
  have hdevice := Endpoint.create_eq_ok_iff.2 ⟨rfl, rfl, show w₀.device.phase = .idle from rfl⟩
  refine ⟨w₀, create_eq_ok_iff.2 ⟨hhost, hdevice⟩, ?_⟩
  intro w
  obtain ⟨-, hread, hwrite⟩ := exchange_outcome w₀ [(.device, .sendRaw [0xFF])] rfl (by decide)
    (by decide) (by decide)
  have hread := hread 0x2007 8 3 0x10 (by decide)
  rw [if_pos (by decide)] at hread
  obtain ⟨s, outcome, hs, hok, hcompleted, -⟩ := hread
  obtain ⟨t, outcome', ht, hok', hcompleted'⟩ := hwrite rfl rfl rfl 0x2007 0x10 _ _ rfl rfl []
    (Nat.zero_le _) [[0xAA]] 0x2007 (by decide)
  refine ⟨⟨_, _, t, outcome', rfl, rfl, ht, hok', hcompleted'⟩, s, outcome, hs, hok, ?_⟩
  rw [hcompleted]
  decide +kernel

/-- A read of more fragments than a buffer holds replies does not time out: it has no answer. -/
theorem oversized_read_has_no_outcome :
    ∃ w₀ : Wire, create {} {} {} = .ok w₀ ∧ 0 < w₀.host.link.idle ∧
      0 < w₀.host.settings.ackTimeout ∧ 0 < w₀.host.settings.readTimeout ∧
      ¬ ∃ s outcome, w₀.host.read? 0x2000 1 (2 ^ 59) 0x10 = some s ∧ s.result = .ok outcome := by
  let new : Endpoint :=
    { settings := {}
      mac := .zero
      peer := .zero
      link := {} }
  have hnew := Endpoint.create_eq_ok_iff.2 ⟨rfl, rfl, show new.phase = .idle from rfl⟩
  refine ⟨⟨new, new⟩, create_eq_ok_iff.2 ⟨hnew, hnew⟩, by decide, by decide, by decide, ?_⟩
  rintro ⟨s, outcome, hs, -⟩
  obtain ⟨hfits, -⟩ := Endpoint.read?_eq_some_iff.1 hs
  exact absurd hfits (by decide)

end Wire

end RemoteMemory
