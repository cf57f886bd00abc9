import RemoteMemory.Octets
import RemoteMemory.Checksum
import RemoteMemory.Error
import RemoteMemory.Numeral
import RemoteMemory.Ethernet.Mac
import RemoteMemory.Ethernet.Header
import RemoteMemory.Ipv4.Address
import RemoteMemory.Ipv4.Header
import RemoteMemory.Udp.Port
import RemoteMemory.Udp.Datagram
import RemoteMemory.Tcp.Segment
import RemoteMemory.Request.Opcode
import RemoteMemory.Request.ByteRange
import RemoteMemory.Request.Header
import RemoteMemory.Packet.Layer
import RemoteMemory.Packet.Basic
import RemoteMemory.Packet.Checksums
import RemoteMemory.Packet.RequestFrame
import RemoteMemory.Link
import RemoteMemory.Buffer
import RemoteMemory.Endpoint.Settings
import RemoteMemory.Endpoint.Basic
import RemoteMemory.Endpoint.Watch
import RemoteMemory.Endpoint.Batch
import RemoteMemory.Endpoint.Operation
import RemoteMemory.Wire
import RemoteMemory.Proofs.EnabledBytes
import RemoteMemory.Proofs.Frame
import RemoteMemory.Proofs.Watch
import RemoteMemory.Proofs.Step
import RemoteMemory.Proofs.Batch
import RemoteMemory.Proofs.Operation
import RemoteMemory.Proofs.Run
import RemoteMemory.Proofs.Provenance
import RemoteMemory.Proofs.Exchange
import RemoteMemory.Proofs.OnesComplement
import RemoteMemory.Proofs.InternetChecksum
import RemoteMemory.Proofs.Sealing
import RemoteMemory.Proofs.SegmentHeader
import RemoteMemory.Proofs.Receiver
import RemoteMemory.Proofs.Refusal
import RemoteMemory.Proofs.RequestFrame
import RemoteMemory.Proofs.Resealing
import RemoteMemory.Proofs.Disclosure
import RemoteMemory.Proofs.Phases
import RemoteMemory.Proofs.Recognition
import RemoteMemory.Proofs.Reception
import RemoteMemory.Proofs.Deadline
import RemoteMemory.Proofs.Noise
import RemoteMemory.Proofs.Patience
import RemoteMemory.Proofs.Punctuality
import RemoteMemory.Proofs.HeaderValidity
import RemoteMemory.Proofs.AbsentChecksum
import RemoteMemory.Proofs.Corruption
import RemoteMemory.Proofs.WireLength
import RemoteMemory.Proofs.HeaderCodec
import RemoteMemory.Proofs.TransportCodec
import RemoteMemory.Proofs.MacText
