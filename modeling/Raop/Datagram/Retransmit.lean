/-
# Retransmission

A request names a run of sequence numbers, which may wrap; a response carries
one audio packet, whole, behind a header of its own.

Key definitions: `RetransmitRequest`, `RetransmitRequest.sequences`,
`RetransmitResponse.encode`, `RetransmitResponse.audioPacket`.
-/
import Raop.Datagram.Audio

namespace Raop

/-- A request for `count` packets from `start` on. -/
structure RetransmitRequest where
  sequence : UInt16
  start : UInt16
  count : UInt16
  deriving DecidableEq, Repr, Inhabited

namespace RetransmitRequest

/-- The length of a request. -/
def size : Nat := 8

/-- The octets of a request. -/
def encode (r : RetransmitRequest) : Bytes :=
  [0x80, 0x80 ||| PayloadType.retransmitRequest.code] ++ Bytes.be16 r.sequence ++
    Bytes.be16 r.start ++ Bytes.be16 r.count

/-- The fields of a datagram that is long enough. -/
def fields? : Bytes → Option RetransmitRequest
  | _ :: _ :: bs => do
    let (sequence, bs) ← Bytes.read16 bs
    let (start, bs) ← Bytes.read16 bs
    let (count, _) ← Bytes.read16 bs
    return { sequence, start, count }
  | _ => none

/-- The request in a datagram. -/
def decode (datagram : Bytes) : Except PacketError RetransmitRequest :=
  match fields? datagram with
  | none => .error (.bufferTooSmall size datagram.length)
  | some r =>
    match PayloadType.expect (· == .retransmitRequest) datagram with
    | .error e => .error e
    | .ok _ => .ok r

/-- `count` sequence numbers from `start` on, counted modulo 2^16. -/
def run (start count : UInt16) : List UInt16 :=
  (List.range count.toNat).map fun i => start + UInt16.ofNat i

/-- The sequence numbers that are asked for. -/
def sequences (r : RetransmitRequest) : List UInt16 := run r.start r.count

end RetransmitRequest

namespace RetransmitResponse

/-- The octets before the audio packet. -/
def headerSize : Nat := 4

/-- The octets of a response around an audio packet. -/
def encode (sequence : UInt16) (packet : Bytes) : Bytes :=
  [0x80, 0x80 ||| PayloadType.retransmitResponse.code] ++ Bytes.be16 sequence ++ packet

/-- The audio packet in a response that is long enough for both headers. -/
def audioPacket (datagram : Bytes) : Except PacketError Bytes :=
  if datagram.length < headerSize + AudioPacket.headerSize then
    .error (.bufferTooSmall (headerSize + AudioPacket.headerSize) datagram.length)
  else .ok (datagram.drop headerSize)

end RetransmitResponse
end Raop
