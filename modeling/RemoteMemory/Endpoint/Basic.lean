/-
# Endpoints

`FpgaInterface` with its `State` and its frame filter, `SPEC_FULL.md`, sections 2 and 4.5.

An endpoint sends memory requests to one peer over a link and waits for what the
peer sends back.  This module holds its state, the record of its dealings with
the link (`Call`, `Step`), the frames it builds and the filter that tells replies
from other frames.

A frame is a reply to a request if it has both headers, its type is the endpoint's,
it comes from the peer, and operation and tag are those waited for (`accepts`).

The addresses of an endpoint are read once, from its settings, and an endpoint carries
the proof that its settings name them: there is none whose settings name no address.
A new one is therefore given by its settings and its link (`create_eq_ok_iff`).
-/

import RemoteMemory.Endpoint.Settings
import RemoteMemory.Link
import RemoteMemory.Packet.RequestFrame

namespace RemoteMemory

/-- Where an endpoint stands in a transaction. -/
inductive Phase where
  /-- Nothing was asked of it yet. -/
  | idle
  /-- The frames of a batch go out. -/
  | sending
  /-- It waits for an acknowledgment. -/
  | awaitingAck
  /-- It waits for the replies to a read. -/
  | awaitingRead
  /-- The last transaction got all it waited for. -/
  | completed
  /-- The last transaction did not get all it waited for in time. -/
  | timedOut
deriving DecidableEq

/-- One dealing of an endpoint with its link. -/
inductive Call where
  /-- A frame was offered, and taken or not. -/
  | send (frame : Octets) (taken : Bool)
  /-- A poll brought an arrival; its frame was counted as a reply or not. -/
  | poll (arrival : Arrival) (counted : Bool)
deriving DecidableEq

namespace Call

/-- The frames offered, in order. -/
def offered (calls : List Call) : List Octets :=
  calls.filterMap fun
    | .send frame _ => some frame
    | .poll _ _ => none

/-- The frames offered and taken, in order. -/
def taken (calls : List Call) : List Octets :=
  calls.filterMap fun
    | .send frame true => some frame
    | _ => none

/-- What the polls brought, in order. -/
def arrivals (calls : List Call) : List Arrival :=
  calls.filterMap fun
    | .poll arrival _ => some arrival
    | .send _ _ => none

/-- The frames counted as replies, in order. -/
def counted (calls : List Call) : List Octets :=
  calls.filterMap fun
    | .poll arrival true => arrival.frame
    | _ => none

/-- The time that passed: polls take some, sending takes none. -/
def elapsed (calls : List Call) : Nat :=
  (arrivals calls).foldr (fun arrival time => arrival.micros + time) 0

end Call

/-- An endpoint: its settings, the two addresses they name, its link and its
phase. -/
structure Endpoint where
  settings : Settings
  mac : Ethernet.Mac
  peer : Ethernet.Mac
  link : Link
  phase : Phase := .idle
  mac_named : Ethernet.Mac.parse settings.srcMac = .ok mac := by rfl
  peer_named : Ethernet.Mac.parse settings.dstMac = .ok peer := by rfl
deriving DecidableEq

/-- What an operation of an endpoint comes to: its result, the endpoint afterwards,
and its dealings with the link in order. -/
structure Step (α : Type) where
  result : α
  endpoint : Endpoint
  calls : List Call

namespace Step

/-- The same step with its result seen through a function. -/
def map {α β : Type} (f : α → β) (s : Step α) : Step β := { s with result := f s.result }

/-- A step, and a step from the endpoint it leaves. -/
def andThen {α β : Type} (s : Step α) (next : α → Endpoint → Step β) : Step β :=
  let t := next s.result s.endpoint
  { t with calls := s.calls ++ t.calls }

end Step

namespace Endpoint

/-- An endpoint over a link (`FpgaInterface::new`).  Its own address is read first, then its
peer's. -/
def create (link : Link) (settings : Settings) : Except Error Endpoint :=
  match hmac : Ethernet.Mac.parse settings.srcMac with
  | .error cause => .error cause
  | .ok mac =>
    match hpeer : Ethernet.Mac.parse settings.dstMac with
    | .error cause => .error cause
    | .ok peer => .ok { settings, mac, peer, link, mac_named := hmac, peer_named := hpeer }

/-- **A new endpoint is given by its link and its settings,** and was asked nothing yet. -/
theorem create_eq_ok_iff {link : Link} {settings : Settings} {e : Endpoint} :
    create link settings = .ok e ↔ e.link = link ∧ e.settings = settings ∧ e.phase = .idle := by
  unfold create
  constructor
  · intro h
    split at h
    · cases h
    · split at h
      · cases h
      · obtain rfl := Except.ok.inj h
        exact ⟨rfl, rfl, rfl⟩
  · rintro ⟨rfl, rfl, hphase⟩
    obtain ⟨settings, mac, peer, link, phase, hmac, hpeer⟩ := e
    subst hphase
    split
    · rename_i hmac'
      cases hmac.symm.trans hmac'
    · rename_i hmac'
      obtain rfl := Except.ok.inj (hmac.symm.trans hmac')
      split
      · rename_i hpeer'
        cases hpeer.symm.trans hpeer'
      · rename_i hpeer'
        obtain rfl := Except.ok.inj (hpeer.symm.trans hpeer')
        rfl

/-- An endpoint over a named network interface (`FpgaInterface::open`), of those that can be
opened with a poll interval.  The interface is looked for before the addresses are read. -/
def onInterface (interfaces : String → Nat → Option Link) (name : String)
    (settings : Settings) : Except Error Endpoint :=
  match interfaces name settings.pollInterval with
  | none => .error (.interfaceNotFound name)
  | some link => create link settings

/-- The endpoint in another phase. -/
def enter (e : Endpoint) (phase : Phase) : Endpoint := { e with phase }

/-- More arrivals and answers on the link. -/
def load (e : Endpoint) (arrivals : List Arrival) (answers : List Bool) : Endpoint :=
  { e with link := e.link.load arrivals answers }

/-- Offer one frame to the link; the result is whether it is taken. -/
def send (e : Endpoint) (frame : Octets) : Step Bool :=
  let (taken, link) := e.link.offer
  { result := taken, endpoint := { e with link }, calls := [.send frame taken] }

/-- The octet that stands for an operation in the frames of a batch (`wire_opcode`). -/
def wireOpcode (e : Endpoint) : Request.Opcode → UInt8
  | .ack => e.settings.ackOpcode
  | other => other.value

/-- The frame to the peer that asks for the range of a payload at an address
(`build_frame`). -/
def frameFor (e : Endpoint) (address : UInt64) (payload : Octets) (opcode tag : UInt8) :
    Except Error Octets :=
  let link := Ethernet.Header.between e.mac e.peer e.settings.ethertype
  let request := ({} : Request.Header).ask ⟨address, .ofNat payload.length⟩ opcode tag
  (Packet.requestFrame ⟨[.ethernet link, .request request]⟩ payload).map Prod.fst

/-- A frame is taken for a reply with an operation octet and a tag (`accepts`). -/
def accepts (e : Endpoint) (opcode tag : UInt8) (frame : Octets) : Bool :=
  if e.settings.validateFrames then
    match Ethernet.Header.ofOctets? frame,
        Request.Header.ofOctets? (frame.drop Ethernet.Header.size) with
    | some link, some request =>
      link.ethertype == e.settings.ethertype && link.src == e.peer &&
        request.opcode == opcode && request.tag == tag
    | _, _ => false
  else true

end Endpoint

end RemoteMemory
