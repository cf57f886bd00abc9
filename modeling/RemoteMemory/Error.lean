/-
# What can be refused, and in which words

`Error`, `SPEC_FULL.md`, section 7.

Every refusal of the library is one of the causes below; `Error.message` is the
only place where a cause is put into words.
-/

namespace RemoteMemory

/-- The kinds of header a packet is stacked from. -/
inductive LayerKind where
  | ethernet
  | ipv4
  | udp
  | tcp
  | request
deriving DecidableEq

/-- The name of a kind of header in messages. -/
def LayerKind.name : LayerKind → String
  | .ethernet => "Link"
  | .ipv4 => "NetworkV4"
  | .udp => "TransportUdp"
  | .tcp => "TransportTcp"
  | .request => "UaLink"

/-- Why an operation was refused. -/
inductive Error where
  /-- No network interface has this name. -/
  | interfaceNotFound (name : String)
  /-- The text is not a hardware address. -/
  | invalidMac (text : String)
  /-- The text is not an IPv4 address. -/
  | invalidIpv4 (text : String)
  /-- The text is not a port number. -/
  | invalidPort (text : String)
  /-- The payload is longer than one frame carries. -/
  | payloadTooLarge (len max : Nat)
  /-- A fragment of a batch is empty. -/
  | emptyPayload
  /-- The packet has no header of a kind that the operation needs. -/
  | missingLayer (kind : LayerKind)
  /-- The number names no operation. -/
  | unknownOpcode (value : UInt8)
deriving DecidableEq

/-- The words for a cause. -/
def Error.message : Error → String
  | .interfaceNotFound name => "interface '" ++ name ++ "' not found"
  | .invalidMac text => "invalid MAC address: " ++ text
  | .invalidIpv4 text => "invalid IPv4 address: " ++ text
  | .invalidPort text => "invalid port: " ++ text
  | .payloadTooLarge len max =>
    "payload of " ++ toString len ++ " bytes exceeds the " ++ toString max ++ " byte limit"
  | .emptyPayload => "empty payload fragment"
  | .missingLayer kind => "packet has no " ++ kind.name ++ " layer"
  | .unknownOpcode value =>
    "No discriminant in enum `Opcode` matches the value `" ++ toString value.toNat ++ "`"

end RemoteMemory
