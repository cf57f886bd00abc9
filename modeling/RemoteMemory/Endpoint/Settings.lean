/-
# Settings of an endpoint

`FpgaConfig`, `SPEC_FULL.md`, section 9.
-/

import RemoteMemory.Ethernet.Header
import RemoteMemory.Request.Opcode

namespace RemoteMemory

/-- How an endpoint addresses its peer, how long it waits and which frames it takes
for replies.  Times are in microseconds. -/
structure Settings where
  /-- Own hardware address, as text. -/
  srcMac : String := "00:00:00:00:00:00"
  /-- Hardware address of the peer, as text. -/
  dstMac : String := "00:00:00:00:00:00"
  ethertype : UInt16 := Ethernet.typeIpv4
  /-- How long a write waits for its acknowledgment. -/
  ackTimeout : Nat := 100000
  /-- How long a read waits for its replies. -/
  readTimeout : Nat := 100000
  /-- How long one poll of a network interface blocks. -/
  pollInterval : Nat := 1000
  /-- The operation octet that acknowledgments carry. -/
  ackOpcode : UInt8 := Request.Opcode.ack.value
  /-- Look at frames before taking them for replies; otherwise any frame is one. -/
  validateFrames : Bool := true
deriving DecidableEq

end RemoteMemory
