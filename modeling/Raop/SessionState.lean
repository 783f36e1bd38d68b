/-
# States of a session

A player and a proxy go through the same states and make the same demands on a
request's state and content type.

Key definitions: `SessionState`, `SessionState.expect`, `requireSdp`.
-/
import Raop.Error
import Raop.Message.Request

namespace Raop

/-- How far a session has come. -/
inductive SessionState where
  | idle
  | announced
  | setUp
  | recording
  | flushed
  | tornDown
  deriving DecidableEq, Repr, Inhabited

namespace SessionState

/-- The name of a state. -/
def name : SessionState → String
  | idle => "Idle"
  | announced => "Announced"
  | setUp => "SetUp"
  | recording => "Recording"
  | flushed => "Flushed"
  | tornDown => "TornDown"

/-- States with open channels. -/
def active : List SessionState := [setUp, recording, flushed]

/-- States in which sound may be pending. -/
def streaming : List SessionState := [recording, flushed]

/-- A method is only valid in some states. -/
def expect (s : SessionState) (method : Method) (allowed : List SessionState) :
    Except Error Unit :=
  if allowed.contains s then .ok () else .error (.invalidState method.token s.name)

end SessionState

/-- The media type of stream descriptions. -/
def sdpMediaType : String := "application/sdp"

/-- The request says that its body is a stream description. -/
def requireSdp (request : Request) : Except Error Unit :=
  match request.headers.contentType? with
  | none => .error (.protocol "no Content-Type header")
  | some type =>
    if Text.trim type = sdpMediaType then .ok ()
    else .error (.protocol
      ("invalid Content-Type " ++ Text.quote type ++ ", expected " ++ sdpMediaType))

/-- The session identifier of every answer to SETUP. -/
def sessionId : String := "DEADBEEF"

end Raop
