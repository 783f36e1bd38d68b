/-
# Audio packets

Twelve octets of header, then the payload: version octet, marker and payload
type, sequence number, timestamp, source.

Key definitions: `AudioPacket`, `AudioPacket.encode`, `AudioPacket.decode`,
`AudioPacket.peekSequence?`.
-/
import Raop.Datagram.PayloadType

namespace Raop

/-- A packet of sound. -/
structure AudioPacket where
  marker : Bool := false
  buffered : Bool := false
  sequence : UInt16
  timestamp : UInt32
  ssrc : UInt32
  payload : Bytes
  deriving DecidableEq, Repr, Inhabited

namespace AudioPacket

/-- The octets before the payload. -/
def headerSize : Nat := 12

/-- The payload type. -/
def type (p : AudioPacket) : PayloadType :=
  if p.buffered then .audioBuffered else .audioRealtime

/-- The octets of a packet. -/
def encode (p : AudioPacket) : Bytes :=
  [0x80, p.type.code ||| if p.marker then 0x80 else 0] ++ Bytes.be16 p.sequence ++
    Bytes.be32 p.timestamp ++ Bytes.be32 p.ssrc ++ p.payload

/-- The packet whose header is well laid out, whatever its payload type. -/
def fields? : Bytes → Option AudioPacket
  | _ :: b :: bs => do
    let (sequence, bs) ← Bytes.read16 bs
    let (timestamp, bs) ← Bytes.read32 bs
    let (ssrc, payload) ← Bytes.read32 bs
    return { marker := 0x80 ≤ b, sequence, timestamp, ssrc, payload }
  | _ => none

/-- The packet in a datagram. -/
def decode (datagram : Bytes) : Except PacketError AudioPacket :=
  match fields? datagram with
  | none => .error (.bufferTooSmall headerSize datagram.length)
  | some p =>
    match PayloadType.expect PayloadType.isAudio datagram with
    | .error e => .error e
    | .ok t => .ok { p with buffered := t = .audioBuffered }

/-- The sequence number of a datagram that is long enough for a header, read without a look at the rest. -/
def peekSequence? (datagram : Bytes) : Option UInt16 :=
  if headerSize ≤ datagram.length then (Bytes.read16 (datagram.drop 2)).map (·.1) else none

end AudioPacket
end Raop
