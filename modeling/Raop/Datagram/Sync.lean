/-
# Sync packets

A sync packet ties a media timestamp to a wall-clock time.

Key definitions: `SyncPacket`, `SyncPacket.encode`, `SyncPacket.decode`.
-/
import Raop.Datagram.PayloadType
import Raop.Ntp

namespace Raop

/-- A media timestamp, the time at which it plays, and the timestamp of the next packet. -/
structure SyncPacket where
  extension : Bool
  rtp : UInt32
  ntp : NtpTime
  next : UInt32
  deriving DecidableEq, Repr, Inhabited

namespace SyncPacket

/-- The length of a sync packet. -/
def size : Nat := 20

/-- The octets of a packet. -/
def encode (p : SyncPacket) : Bytes :=
  [0x80 ||| if p.extension then 0x10 else 0, 0xD4] ++ Bytes.be16 7 ++ Bytes.be32 p.rtp ++
    p.ntp.encode ++ Bytes.be32 p.next

/-- The fields of a datagram that is long enough. -/
def fields? : Bytes → Option SyncPacket
  | a :: _ :: bs => do
    let (_, bs) ← Bytes.read16 bs
    let (rtp, bs) ← Bytes.read32 bs
    let (ntp, bs) ← NtpTime.read bs
    let (next, _) ← Bytes.read32 bs
    return { extension := a &&& 0x10 != 0, rtp, ntp, next }
  | _ => none

/-- The packet in a datagram; its payload type is not looked at. -/
def decode (datagram : Bytes) : Except PacketError SyncPacket :=
  match fields? datagram with
  | none => .error (.bufferTooSmall size datagram.length)
  | some p => .ok p

end SyncPacket
end Raop
