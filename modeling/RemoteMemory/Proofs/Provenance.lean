/-
# Where the frames that a host counts come from

The frame filter of `SPEC_FULL.md`, section 4.5, over the transport boundary of section 6.

A host that looks at its frames never counts one that was not sent for it.  Every frame
that one of its waits counts was put on the wire by the device before, as the reply that
the wait is for, and no frame is counted twice: the frames counted, in order, sit at
strictly increasing positions among the frames sent (`Wire.counts_come_from_wire`).

| wait ends                 | frames it counted                        |
|---------------------------|------------------------------------------|
| acknowledged              | one, with the last poll                  |
| without acknowledgment    | none                                     |
| reading, in time or not   | those whose data it answers, in order    |

So there are never more acknowledged writes with a tag than there were acknowledgments
with it on the wire.
-/

import Mathlib
import RemoteMemory.Proofs.Run

namespace RemoteMemory

/-- The frame is a reply to the endpoint that is what it awaits. -/
def Endpoint.Answers (e : Endpoint) (awaited : Awaited) (frame : Octets) : Prop :=
  match awaited with
  | .nothing => False
  | .ack tag => e.Expects e.settings.ackOpcode tag frame
  | .replies tag => e.Expects 1 tag frame

theorem Endpoint.recognizes_iff_answers {e : Endpoint} (hv : e.settings.validateFrames = true)
    (awaited : Awaited) (frame : Octets) :
    e.recognizes awaited frame = true ↔ e.Answers awaited frame := by
  cases awaited with
  | nothing =>
    constructor
    · intro h
      cases h
    · exact False.elim
  | ack tag => exact accepts_iff_expects hv _ _ _
  | replies tag => exact accepts_iff_expects hv _ _ _

/-- A frame that the host counted, what it awaited then, and how many frames the device
had put on the wire before. -/
structure Count where
  awaited : Awaited
  frame : Octets
  sentBefore : ℕ

namespace Deed

/-- The frames that the host counts, in order, behind `n` frames of the device. -/
def counts (n : ℕ) : List Deed → List Count
  | [] => []
  | d :: ds =>
    match d.side with
    | .host => (Call.counted d.step.calls).map (⟨d.op.awaited, ·, n⟩) ++ counts n ds
    | .device => counts (n + (Call.taken d.step.calls).length) ds

/-- The host waited for an acknowledgment with a tag, behind a write or on its own, and
got it. -/
def acknowledged (tag : UInt8) (d : Deed) : Bool :=
  d.side = .host ∧ d.op.awaited = .ack tag ∧ d.step.result.completed = true

end Deed

namespace Wire

/-- A frame with its position is the one counted: it was sent before, the host holds it as
it fits into its buffer, and it is what the host awaited. -/
def Traces (w : Wire) (c : Count) (origin : Octets × ℕ) : Prop :=
  origin.2 < c.sentBefore ∧ c.frame = Link.received origin.1 ∧
    w.host.recognizes c.awaited origin.1 = true

/-- Wires whose hosts are set up alike trace their counts alike. -/
theorem traces_eq {w next : Wire} (h : next.host.SetUpLike w.host) : next.Traces = w.Traces := by
  funext c origin
  simp only [Traces, h.recognizes_eq]

/-- What the host counts while it takes frames originates in the frames it takes. -/
theorem HostTakes.exists_origins {w next : Wire} {op : Operation} {s : Step Answer} {k n : ℕ}
    {pending : List (Octets × ℕ)} (hk : HostTakes (pending.map Prod.fst) w op k s next)
    (hbefore : ∀ x ∈ pending, x.2 < n) :
    ∃ origins, List.Forall₂ w.Traces ((Call.counted s.calls).map (⟨op.awaited, ·, n⟩)) origins ∧
      origins.Sublist (pending.take k) := by
  refine ⟨(pending.take k).filter fun x => w.host.recognizes op.awaited x.1, ?_,
    List.filter_sublist⟩
  rw [hk.counted, ← List.map_take, List.filter_map, List.map_map, List.map_map,
    List.forall₂_map_left_iff]
  refine List.forall₂_same.2 fun x hx => ?_
  obtain ⟨hmem, hrecognized⟩ := List.mem_filter.1 hx
  exact ⟨hbefore x (List.mem_of_mem_take hmem), rfl, hrecognized⟩

/-- **Every count has an origin of its own,** further on than those of the counts before it:
among the frames that are pending, with their positions, and those sent from then on. -/
theorem Reaches.exists_origins {w last : Wire} {ds : List Deed} (h : w.Reaches ds last) (n : ℕ)
    (pending : List (Octets × ℕ)) (hw : w.host.link.Holds (pending.map Prod.fst))
    (hbefore : ∀ x ∈ pending, x.2 < n) :
    ∃ origins, List.Forall₂ w.Traces (Deed.counts n ds) origins ∧
      origins.Sublist (pending ++ (Deed.sent ds).zipIdx n) := by
  induction h generalizing n pending with
  | refl w => exact ⟨[], .nil, List.nil_sublist _⟩
  | @step w next last side op s ds hstep _ ih =>
    cases side with
    | host =>
      obtain ⟨k, hk⟩ := exists_hostTakes hstep hw
      obtain ⟨taken, htaken, hsub⟩ := hk.exists_origins hbefore
      have hrest : next.host.link.Holds ((pending.drop k).map Prod.fst) := by
        rw [List.map_drop]
        exact hk.holds
      obtain ⟨origins, htraces, hsub'⟩ :=
        ih n _ hrest fun x hx => hbefore x (List.mem_of_mem_drop hx)
      rw [traces_eq (setUpLike_of_perform? hstep .host)] at htraces
      refine ⟨taken ++ origins, List.rel_append htaken htraces, ?_⟩
      rw [Deed.sent_host, ← List.take_append_drop k pending, List.append_assoc]
      exact hsub.append hsub'
    | device =>
      have hrest : next.host.link.Holds
          ((pending ++ (Call.taken s.calls).zipIdx n).map Prod.fst) := by
        rw [List.map_append, List.zipIdx_map_fst]
        exact holds_of_device hstep hw
      have hpositions : ∀ x ∈ pending ++ (Call.taken s.calls).zipIdx n,
          x.2 < n + (Call.taken s.calls).length := by
        intro x hx
        rcases List.mem_append.1 hx with hp | ht
        · have := hbefore x hp
          omega
        · have := List.snd_lt_of_mem_zipIdx ht
          omega
      obtain ⟨origins, htraces, hsub⟩ := ih _ _ hrest hpositions
      rw [traces_eq (setUpLike_of_perform? hstep .host)] at htraces
      rw [List.append_assoc, ← List.zipIdx_append] at hsub
      exact ⟨origins, htraces, hsub⟩

end Wire

namespace Deed

/-- A wait that got its acknowledgment counted one frame. -/
theorem length_counted_of_acknowledged {tag : UInt8} {op : Operation} {s : Step Answer}
    (h : acknowledged tag ⟨.host, op, s⟩ = true) (ha : op.awaited.Accounts s) :
    op.awaited = .ack tag ∧ (Call.counted s.calls).length = 1 := by
  obtain ⟨-, hop, hcame⟩ := of_decide_eq_true h
  rw [hop] at ha
  have hlength := Call.EndWithAck.length_counted ha
  rw [if_pos hcame] at hlength
  exact ⟨hop, hlength⟩

/-- A wait of the host puts nothing on the wire toward it. -/
theorem sent_concat_of_acknowledged {tag : UInt8} {d : Deed} (h : d.acknowledged tag = true)
    (ds : List Deed) : sent (ds ++ [d]) = sent ds := by
  obtain ⟨hside, -, -⟩ := of_decide_eq_true h
  simp [sent, hside]

/-- There are no more waits that got an acknowledgment with a tag than frames counted for
one. -/
theorem countP_acknowledged_le {ds : List Deed} (h : ∀ d ∈ ds, d.op.awaited.Accounts d.step)
    (tag : UInt8) (n : ℕ) :
    ds.countP (acknowledged tag) ≤ (counts n ds).countP (·.awaited = .ack tag) := by
  induction ds generalizing n with
  | nil => exact le_rfl
  | cons d ds ih =>
    obtain ⟨haccounts, hrest⟩ := List.forall_mem_cons.1 h
    obtain ⟨side, op, s⟩ := d
    rw [List.countP_cons]
    cases side with
    | device =>
      have := ih hrest (n + (Call.taken s.calls).length)
      simpa [acknowledged, counts] using this
    | host =>
      have hone : (if acknowledged tag ⟨.host, op, s⟩ = true then 1 else 0) ≤
          ((Call.counted s.calls).map fun f => (⟨op.awaited, f, n⟩ : Count)).countP
            (·.awaited = .ack tag) := by
        split_ifs with hack
        · obtain ⟨hop, hlength⟩ := length_counted_of_acknowledged hack haccounts
          rw [hop, List.countP_map, ← hlength]
          exact (List.countP_eq_length.2 fun f _ => decide_eq_true rfl).ge
        · exact Nat.zero_le _
      rw [counts, List.countP_append, Nat.add_comm]
      exact Nat.add_le_add hone (ih hrest n)

end Deed

namespace Wire

/-- No more frames are counted for an acknowledgment with a tag than the filter takes for
one of their origins. -/
theorem countP_le_of_traces {w : Wire} {cs : List Count} {origins : List (Octets × ℕ)}
    (h : List.Forall₂ w.Traces cs origins) (tag : UInt8) :
    cs.countP (·.awaited = .ack tag) ≤
      (origins.map Prod.fst).countP (w.host.accepts w.host.settings.ackOpcode tag) := by
  induction h with
  | nil => exact le_rfl
  | @cons c origin cs origins htrace _ ih =>
    rw [List.map_cons, List.countP_cons, List.countP_cons]
    refine Nat.add_le_add ih ?_
    split_ifs with hc hno
    · exact le_rfl
    · have hrecognized := htrace.2.2
      rw [of_decide_eq_true hc] at hrecognized
      exact absurd hrecognized hno
    · exact Nat.zero_le _
    · exact le_rfl

/-- **There are no more acknowledged waits with a tag than acknowledgments on the wire.** -/
theorem Reaches.countP_acknowledged_le {w last : Wire} {ds : List Deed} (h : w.Reaches ds last)
    (hw : w.host.link.Holds []) (tag : UInt8) :
    ds.countP (Deed.acknowledged tag) ≤
      (Deed.sent ds).countP (w.host.accepts w.host.settings.ackOpcode tag) := by
  obtain ⟨origins, htraces, hsub⟩ := h.exists_origins 0 [] hw (by simp)
  have hsent : (origins.map Prod.fst).Sublist (Deed.sent ds) := by
    rw [← List.zipIdx_map_fst 0 (Deed.sent ds)]
    exact hsub.map Prod.fst
  calc ds.countP (Deed.acknowledged tag)
      ≤ (Deed.counts 0 ds).countP (·.awaited = .ack tag) :=
        Deed.countP_acknowledged_le h.accounts tag 0
    _ ≤ (origins.map Prod.fst).countP (w.host.accepts w.host.settings.ackOpcode tag) :=
        countP_le_of_traces htraces tag
    _ ≤ (Deed.sent ds).countP (w.host.accepts w.host.settings.ackOpcode tag) := hsent.countP_le

/-- **Where the frames that a host counts come from.**  Whatever the two sides do, in
whatever order, from a wire with nothing pending toward the host: the frames that the
host's waits count were put on the wire by the device, each before the wait began and as
the reply that it awaits, and they were put there in the order in which they are counted,
none of them twice.  The answers account for the frames counted.  So, at any time, there
are no more writes that got an acknowledgment with a tag than acknowledgments with it on
the wire, and none gets one before it is there. -/
theorem counts_come_from_wire (w : Wire) (ops : List (Side × Operation))
    (hpending : w.host.link.pending = []) (hvalidate : w.host.settings.validateFrames = true) :
    (∃ position : ℕ → ℕ, StrictMono position ∧
      ∀ i c, (Deed.counts 0 (w.deeds ops))[i]? = some c →
        position i < c.sentBefore ∧
        ∃ frame, (Deed.sent (w.deeds ops))[position i]? = some frame ∧
          c.frame = frame.take 2048 ∧ w.host.Answers c.awaited frame) ∧
    (∀ d ∈ w.deeds ops, d.op.awaited.Accounts d.step) ∧
    (∀ n tag, ((w.deeds ops).take n).countP (Deed.acknowledged tag) ≤
      (Deed.sent ((w.deeds ops).take n)).countP
        (w.host.accepts w.host.settings.ackOpcode tag)) ∧
    ∀ n d tag, (w.deeds ops)[n]? = some d → d.acknowledged tag = true →
      ∃ frame ∈ Deed.sent ((w.deeds ops).take n),
        w.host.Expects w.host.settings.ackOpcode tag frame := by
  have hreach := w.reaches_run ops
  have hcount : ∀ n tag, ((w.deeds ops).take n).countP (Deed.acknowledged tag) ≤
      (Deed.sent ((w.deeds ops).take n)).countP
        (w.host.accepts w.host.settings.ackOpcode tag) := by
    intro n tag
    obtain ⟨mid, hmid⟩ := hreach.exists_take n
    exact hmid.countP_acknowledged_le hpending tag
  refine ⟨?_, hreach.accounts, hcount, fun n d tag hd hack => ?_⟩
  · obtain ⟨origins, htraces, hsub⟩ :=
      hreach.exists_origins 0 [] hpending (by simp)
    obtain ⟨position, hposition⟩ := List.sublist_iff_exists_orderEmbedding_getElem?_eq.1 hsub
    refine ⟨position, position.strictMono, fun i c hc => ?_⟩
    obtain ⟨hi, rfl⟩ := List.getElem?_eq_some_iff.1 hc
    have hi' : i < origins.length := htraces.length_eq ▸ hi
    have htrace := htraces.get hi hi'
    have horigin := (hposition i).symm
    rw [List.nil_append, List.getElem?_zipIdx, List.getElem?_eq_getElem hi',
      Option.map_eq_some_iff] at horigin
    obtain ⟨frame, hframe, heq⟩ := horigin
    rw [List.get_eq_getElem, List.get_eq_getElem, ← heq, Nat.zero_add] at htrace
    obtain ⟨hbefore, hreceived, hrecognized⟩ := htrace
    exact ⟨hbefore, frame, hframe, hreceived,
      (Endpoint.recognizes_iff_answers hvalidate _ _).1 hrecognized⟩
  · have hone := hcount (n + 1) tag
    rw [List.take_add_one, hd, Option.toList_some, Deed.sent_concat_of_acknowledged hack,
      List.countP_append, List.countP_singleton, if_pos hack] at hone
    obtain ⟨frame, hsent, haccepted⟩ := List.countP_pos_iff.1 ((Nat.succ_pos _).trans_le hone)
    exact ⟨frame, hsent, (Endpoint.accepts_iff_expects hvalidate _ _ _).1 haccepted⟩

/-- A write whose acknowledgment is pending behind one for another tag. -/
theorem counts_come_from_wire_behind_other_tag :
    ∃ w : Wire, create {} { dstMac := "02:00:00:00:00:02" } { srcMac := "02:00:00:00:00:02" } =
        .ok w ∧
      let ops : List (Side × Operation) :=
        [(.device, .sendAck 0x2007 0x0F), (.device, .sendAck 0x2007 0x10),
          (.host, .write [[0xAA]] 0x2007 0x10)]
      (w.deeds ops).countP (Deed.acknowledged 0x10) = 1 ∧
        ∃ frame ∈ Deed.sent ((w.deeds ops).take 2),
          w.host.Expects w.host.settings.ackOpcode 0x10 frame := by
  let w : Wire :=
    { host :=
        { settings := { dstMac := "02:00:00:00:00:02" }
          mac := .zero
          peer := ⟨2, 0, 0, 0, 0, 2⟩
          link := {} }
      device :=
        { settings := { srcMac := "02:00:00:00:00:02" }
          mac := ⟨2, 0, 0, 0, 0, 2⟩
          peer := .zero
          link := {} } }
  have hhost := Endpoint.create_eq_ok_iff.2 ⟨rfl, rfl, show w.host.phase = .idle from rfl⟩
  have hdevice := Endpoint.create_eq_ok_iff.2 ⟨rfl, rfl, show w.device.phase = .idle from rfl⟩
  refine ⟨w, create_eq_ok_iff.2 ⟨hhost, hdevice⟩, ?_⟩
  intro ops
  obtain ⟨-, -, -, hbefore⟩ := counts_come_from_wire w ops rfl rfl
  have hwrite : (w.deeds ops)[2]?.any (Deed.acknowledged 0x10) = true := by decide +kernel
  obtain ⟨d, hd, hack⟩ := (Option.any_eq_true _ _).1 hwrite
  exact ⟨by decide +kernel, hbefore 2 d 0x10 hd hack⟩

end Wire

end RemoteMemory
