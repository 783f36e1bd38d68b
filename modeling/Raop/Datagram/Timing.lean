/-
# Timing packets

A timing request carries the time it was sent. The response gives that time
back as its reference, with the times at which the request arrived and the
response left; with the arrival of the response the four times give the offset
of the two clocks and the time spent on the way.

Key definitions: `TimingPacket`, `TimingPacket.respond`, `TimingPacket.encode`,
`TimingPacket.decode`, `TimingPacket.clockOffset`, `TimingPacket.roundTrip`,
`TimingPacket.rawTime?`.
-/
import Raop.Datagram.PayloadType
import Raop.Ntp

namespace Raop

/-- A request for the time, or the answer to one. -/
structure TimingPacket where
  isResponse : Bool
  sequence : UInt16
  reference : NtpTime := {}
  receive : NtpTime := {}
  send : NtpTime
  deriving DecidableEq, Repr, Inhabited

namespace TimingPacket

/-- The length of a timing packet. -/
def size : Nat := 32

/-- Where the reference time stands. -/
def referenceAt : Nat := 8

/-- Where the receive time stands. -/
def receiveAt : Nat := 16

/-- Where the send time stands. -/
def sendAt : Nat := 24

/-- The payload type. -/
def type (p : TimingPacket) : PayloadType :=
  if p.isResponse then .timingResponse else .timingRequest

/-- A request that leaves at `send`. -/
def request (sequence : UInt16) (send : NtpTime) : TimingPacket :=
  { isResponse := false, sequence, send }

/-- The response to a request that arrived at `receive`, leaving at `send`. -/
def respond (request : TimingPacket) (receive send : NtpTime) : TimingPacket :=
  { isResponse := true, sequence := request.sequence, reference := request.send, receive, send }

/-- The octets of a packet. -/
def encode (p : TimingPacket) : Bytes :=
  [0x80, 0x80 ||| p.type.code] ++ Bytes.be16 p.sequence ++ Bytes.be32 0 ++
    p.reference.encode ++ p.receive.encode ++ p.send.encode

/-- The fields of a datagram that is long enough. -/
def fields? : Bytes → Option TimingPacket
  | _ :: _ :: bs => do
    let (sequence, bs) ← Bytes.read16 bs
    let (_, bs) ← Bytes.read32 bs
    let (reference, bs) ← NtpTime.read bs
    let (receive, bs) ← NtpTime.read bs
    let (send, _) ← NtpTime.read bs
    return { isResponse := false, sequence, reference, receive, send }
  | _ => none

/-- A request or a response. -/
def isTiming (t : PayloadType) : Bool := t == .timingRequest || t == .timingResponse

/-- The packet in a datagram. -/
def decode (datagram : Bytes) : Except PacketError TimingPacket :=
  match fields? datagram with
  | none => .error (.bufferTooSmall size datagram.length)
  | some p =>
    match PayloadType.expect isTiming datagram with
    | .error e => .error e
    | .ok t => .ok { p with isResponse := t = .timingResponse }

/-- The word at an offset of a datagram. -/
def rawTime? (datagram : Bytes) (offset : Nat) : Option UInt64 :=
  (Bytes.read64 (datagram.drop offset)).map (·.1)

/-- Microseconds by which the responder's clock is ahead, half of a sum rounded toward zero. -/
def clockOffset (p : TimingPacket) (arrival : NtpTime) : Int :=
  (p.receive.diff p.reference + p.send.diff arrival).tdiv 2

/-- Microseconds spent on the way there and back. -/
def roundTrip (p : TimingPacket) (arrival : NtpTime) : Int :=
  arrival.diff p.reference - p.send.diff p.receive

end TimingPacket
end Raop
