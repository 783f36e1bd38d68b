/-
# Events

What a server tells those who listen.

Key definitions: `Event`.
-/
namespace Raop

/-- Something happened to a server or to a session. -/
inductive Event where
  | started (name : String)
  | stopped (name : String)
  | clientConnected
  | clientDisconnected (reason : String)
  | streamAnnounced (encrypted : Bool)
  | recordingStarted
  | flushed
  | volumeChanged (decibels : Float32)
  | tornDown
  deriving Repr, Inhabited

end Raop
