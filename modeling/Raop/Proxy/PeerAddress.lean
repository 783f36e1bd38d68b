/-
# Addresses of downstream receivers

A peer is a host and a port. The host of a version 6 address stands in
brackets, which are not part of it.

Key definitions: `PeerAddress`, `PeerAddress.parse`, `PeerAddress.render`,
`PeerAddress.isLocal`.
-/
import Raop.Net.Address
import Raop.Text.Quoted

namespace Raop

/-- A host, by name or address, and a port. -/
structure PeerAddress where
  host : String
  port : UInt16
  deriving DecidableEq, Repr, Inhabited

/-- Why a text is no configuration. -/
inductive ConfigError where
  | invalidPeerAddress (text : String)
  deriving DecidableEq, Repr, Inhabited

/-- The text of the error. -/
def ConfigError.message : ConfigError → String
  | invalidPeerAddress text =>
    "invalid peer address " ++ Text.quote text ++ ", expected host:port"

instance : ToString ConfigError := ⟨ConfigError.message⟩

namespace PeerAddress

/-- The peer in a text: a host that is not empty, the last colon and a port that is not zero. -/
def parse? (text : String) : Option PeerAddress := do
  let (host, port) ← Text.splitLast? ':' (Text.trimChars text.toList)
  let host := Endpoint.unbracket host
  let port ← Text.readU16? port
  if host.isEmpty ∨ port = 0 then none else return { host := String.ofList host, port }

/-- The peer in a text, or why there is none. -/
def parse (text : String) : Except ConfigError PeerAddress :=
  match parse? text with
  | some p => .ok p
  | none => .error (.invalidPeerAddress text)

/-- The text of a peer. -/
def render (p : PeerAddress) : String :=
  (if p.host.toList.contains ':' then "[" ++ p.host ++ "]" else p.host) ++ ":" ++
    Text.natText p.port.toNat

/-- The address, if the host is one. -/
def ip? (p : PeerAddress) : Option IpAddress := IpAddress.parse? p.host

/-- The peer is the given port of this host, whose addresses are known. -/
def isLocal (p : PeerAddress) (port : UInt16) (own : List IpAddress) : Bool :=
  p.port = port &&
    (p.host.toList.map Char.toLower = "localhost".toList ||
      match p.ip? with
      | some ip => ip.isLoopback || ip.isUnspecified || own.contains ip
      | none => false)

end PeerAddress
end Raop
