/-
# Payload types of datagrams

The second octet of a datagram is a marker bit and a payload type.

Key definitions: `PayloadType`, `PayloadType.of`, `PacketError`.
-/
import Raop.Bytes
import Raop.Text.Numeral

namespace Raop

/-- What a datagram carries. -/
inductive PayloadType where
  | timingRequest
  | timingResponse
  | sync
  | retransmitRequest
  | retransmitResponse
  | audioRealtime
  | audioBuffered
  deriving DecidableEq, Repr, Inhabited

namespace PayloadType

/-- The seven-bit code. -/
def code : PayloadType → UInt8
  | timingRequest => 0x52
  | timingResponse => 0x53
  | sync => 0x54
  | retransmitRequest => 0x55
  | retransmitResponse => 0x56
  | audioRealtime => 0x60
  | audioBuffered => 0x61

/-- The name in diagnostics. -/
def name : PayloadType → String
  | timingRequest => "TimingRequest"
  | timingResponse => "TimingResponse"
  | sync => "Sync"
  | retransmitRequest => "RetransmitRequest"
  | retransmitResponse => "RetransmitResponse"
  | audioRealtime => "AudioRealtime"
  | audioBuffered => "AudioBuffered"

/-- Every payload type. -/
def all : List PayloadType :=
  [timingRequest, timingResponse, sync, retransmitRequest, retransmitResponse, audioRealtime,
    audioBuffered]

/-- The payload type that an octet names, whatever its marker bit. -/
def ofOctet? (b : UInt8) : Option PayloadType := all.find? fun t => t.code == b &&& 0x7F

/-- A packet of sound. -/
def isAudio : PayloadType → Bool
  | audioRealtime | audioBuffered => true
  | _ => false

end PayloadType

/-- Why octets are not the packet that was expected. -/
inductive PacketError where
  | bufferTooSmall (needed actual : Nat)
  | unknownPayloadType (code : UInt8)
  | unexpectedPayloadType (type : PayloadType)
  deriving DecidableEq, Repr, Inhabited

namespace PacketError

/-- The text of the error. -/
def message : PacketError → String
  | bufferTooSmall needed actual =>
    "buffer too small: need " ++ Text.natText needed ++ " bytes, have " ++ Text.natText actual
  | unknownPayloadType code => "unknown payload type: 0x" ++ Text.hexText 2 code.toNat
  | unexpectedPayloadType type => "unexpected payload type: " ++ type.name

instance : ToString PacketError := ⟨message⟩

end PacketError

namespace PayloadType

/-- The payload type of a datagram. -/
def of (datagram : Bytes) : Except PacketError PayloadType :=
  match datagram with
  | _ :: b :: _ =>
    match ofOctet? b with
    | some t => .ok t
    | none => .error (.unknownPayloadType (b &&& 0x7F))
  | _ => .error (.bufferTooSmall 2 datagram.length)

/-- The payload type of a datagram, which must be one of those that `accepts` names. -/
def expect (accepts : PayloadType → Bool) (datagram : Bytes) : Except PacketError PayloadType :=
  match of datagram with
  | .error e => .error e
  | .ok t => if accepts t then .ok t else .error (.unexpectedPayloadType t)

end PayloadType
end Raop
