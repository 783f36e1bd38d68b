/-
# Configuration of the player

Key definitions: `ReceiverConfig`, `ReceiverConfig.ofValue?`, `ReceiverConfig.toValue`,
`loadKey`.
-/
import Raop.Config.Value
import Raop.Crypto.Pem
import Raop.Net.Ports

namespace Raop

/-- The private key in a file, if one is named; `files` gives the text of a file that can be read. -/
def loadKey (files : String → Option String) (path : Option String) :
    Except CryptoError (Option PrivateKey) :=
  match path with
  | none => .ok none
  | some path =>
    match files path with
    | none => .error .invalidPrivateKey
    | some text => (PrivateKey.ofPem text).map some

namespace RtpPorts

/-- The names of the members. -/
def names : List String := ["audio", "control", "timing"]

/-- The ports in a configuration; a missing one has its default. -/
def ofValue? (v : Value) : Option RtpPorts := do
  let m ← v.members? names
  let d : RtpPorts := {}
  let audio ← Value.get m "audio" Value.u16? d.audio
  let control ← Value.get m "control" Value.u16? d.control
  let timing ← Value.get m "timing" Value.u16? d.timing
  return { audio, control, timing }

/-- The ports as a value. -/
def toValue (p : RtpPorts) : Value :=
  .object [("audio", .ofPort p.audio), ("control", .ofPort p.control),
    ("timing", .ofPort p.timing)]

end RtpPorts

/-- What a player is set up with. -/
structure ReceiverConfig where
  name : String := "AirAudio"
  port : UInt16 := 46343
  bindAddress : IpAddress := .unspecified4
  rtpPorts : RtpPorts := {}
  privateKeyPath : Option String := none
  timingInterval : Duration := ⟨3, 0⟩
  deriving DecidableEq, Repr, Inhabited

namespace ReceiverConfig

/-- The names of the members. -/
def names : List String :=
  ["name", "port", "bind_address", "rtp_ports", "private_key_path", "timing_interval"]

/-- The player in a configuration; a missing member has its default. -/
def ofValue? (v : Value) : Option ReceiverConfig := do
  let m ← v.members? names
  let d : ReceiverConfig := {}
  let name ← Value.get m "name" Value.text? d.name
  let port ← Value.get m "port" Value.u16? d.port
  let bindAddress ← Value.get m "bind_address" Value.address? d.bindAddress
  let rtpPorts ← Value.get m "rtp_ports" RtpPorts.ofValue? d.rtpPorts
  let privateKeyPath ←
    Value.get m "private_key_path" (Value.optional? Value.text?) d.privateKeyPath
  let timingInterval ← Value.get m "timing_interval" Value.duration? d.timingInterval
  return { name, port, bindAddress, rtpPorts, privateKeyPath, timingInterval }

/-- The player as a value. -/
def toValue (c : ReceiverConfig) : Value :=
  .object [("name", .text c.name), ("port", .ofPort c.port),
    ("bind_address", .text c.bindAddress.render), ("rtp_ports", c.rtpPorts.toValue),
    ("private_key_path", .ofOption .text c.privateKeyPath),
    ("timing_interval", .ofDuration c.timingInterval)]

end ReceiverConfig
end Raop
