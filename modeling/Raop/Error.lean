/-
# Errors of a session

What can go wrong while a request is handled or a stream is played, layer by
layer, and the status that a request is answered with.

Key definitions: `Error`, `Error.message`, `Error.status`.
-/
import Raop.Audio.Decoder
import Raop.Audio.Sink
import Raop.Datagram.PayloadType
import Raop.Message.Response
import Raop.Transport

namespace Raop

/-- What went wrong. -/
inductive Error where
  | protocol (detail : String)
  | invalidState (method state : String)
  | notImplemented (method : String)
  /-- A socket refused: what was tried, and why it failed. -/
  | network (context cause : String)
  | timeout (detail : String)
  | sdp (cause : SdpError)
  | transport (cause : TransportError)
  | packet (cause : PacketError)
  | crypto (cause : CryptoError)
  | decode (cause : DecodeError)
  | sink (cause : SinkError)
  deriving DecidableEq, Repr, Inhabited

namespace Error

/-- The text of the error. -/
def message : Error → String
  | protocol detail => "protocol error: " ++ detail
  | invalidState method state => method ++ " not valid in state " ++ state
  | notImplemented method => "method not implemented: " ++ method
  | network context cause => "network error (" ++ context ++ "): " ++ cause
  | timeout detail => "timed out: " ++ detail
  | sdp cause => cause.message
  | transport cause => cause.message
  | packet cause => cause.message
  | crypto cause => cause.message
  | decode cause => cause.message
  | sink cause => cause.message

instance : ToString Error := ⟨message⟩

/-- The status that a request is answered with. -/
def status : Error → Status
  | invalidState _ _ => .invalidState
  | notImplemented _ => .notImplemented
  | network _ _ | timeout _ | sink _ => .internalError
  | _ => .badRequest

end Error
end Raop
