/-
# Configuration of the proxy

Each peer has a block of four local ports above the base, of which the first is
not used; a base of zero leaves the choice to the system.

Key definitions: `ProxyConfig`, `ProxyConfig.ofValue?`, `ProxyConfig.toValue`,
`ProxyConfig.localPorts`, `ProxyConfig.peerPorts`, `ProxyConfig.removeSelfPeers`.
-/
import Raop.Config.Value
import Raop.Net.Ports
import Raop.Proxy.PeerAddress

namespace Raop

/-- What a proxy is set up with. -/
structure ProxyConfig where
  name : String := "AirAudio Proxy"
  port : UInt16 := 46344
  bindAddress : IpAddress := .unspecified4
  localRtpBase : UInt16 := 56400
  peerPortBase : UInt16 := 56500
  barrierTimeout : Duration := ⟨3, 0⟩
  connectTimeout : Duration := ⟨3, 0⟩
  timingKeyTtl : Duration := ⟨10, 0⟩
  historyCapacity : Nat := 512
  peers : List PeerAddress := []
  privateKeyPath : Option String := none
  deriving DecidableEq, Repr, Inhabited

namespace ProxyConfig

/-- The names of the members. -/
def names : List String :=
  ["name", "port", "bind_address", "local_rtp_base", "peer_port_base", "barrier_timeout",
    "connect_timeout", "timing_key_ttl", "history_capacity", "peers", "private_key_path"]

/-- The proxy in a configuration; a missing member has its default. -/
def ofValue? (v : Value) : Option ProxyConfig := do
  let m ← v.members? names
  let d : ProxyConfig := {}
  let name ← Value.get m "name" Value.text? d.name
  let port ← Value.get m "port" Value.u16? d.port
  let bindAddress ← Value.get m "bind_address" Value.address? d.bindAddress
  let localRtpBase ← Value.get m "local_rtp_base" Value.u16? d.localRtpBase
  let peerPortBase ← Value.get m "peer_port_base" Value.u16? d.peerPortBase
  let barrierTimeout ← Value.get m "barrier_timeout" Value.duration? d.barrierTimeout
  let connectTimeout ← Value.get m "connect_timeout" Value.duration? d.connectTimeout
  let timingKeyTtl ← Value.get m "timing_key_ttl" Value.duration? d.timingKeyTtl
  let historyCapacity ← Value.get m "history_capacity" Value.size? d.historyCapacity
  let peers ← Value.get m "peers"
    (Value.list? fun v => v.text?.bind PeerAddress.parse?) d.peers
  let privateKeyPath ←
    Value.get m "private_key_path" (Value.optional? Value.text?) d.privateKeyPath
  return { name, port, bindAddress, localRtpBase, peerPortBase, barrierTimeout, connectTimeout,
           timingKeyTtl, historyCapacity, peers, privateKeyPath }

/-- The proxy as a value. -/
def toValue (c : ProxyConfig) : Value :=
  .object [("name", .text c.name), ("port", .ofPort c.port),
    ("bind_address", .text c.bindAddress.render), ("local_rtp_base", .ofPort c.localRtpBase),
    ("peer_port_base", .ofPort c.peerPortBase),
    ("barrier_timeout", .ofDuration c.barrierTimeout),
    ("connect_timeout", .ofDuration c.connectTimeout),
    ("timing_key_ttl", .ofDuration c.timingKeyTtl),
    ("history_capacity", .ofNat c.historyCapacity),
    ("peers", .list (c.peers.map fun p => .text p.render)),
    ("private_key_path", .ofOption .text c.privateKeyPath)]

/-- The number of ports set aside for a peer. -/
def portBlock : Nat := 4

/-- The local ports of the channels to the sender. -/
def localPorts (c : ProxyConfig) : RtpPorts := .ofFirst c.localRtpBase

/-- The local ports of the channels to the peer at a position. Each sum stops at the highest port. -/
def peerPorts (c : ProxyConfig) (index : Nat) : RtpPorts :=
  if c.peerPortBase = 0 then .ephemeral
  else
    let offset := min (min index 65535 * portBlock) 65535
    .ofFirst (RtpPorts.clamp (min (c.peerPortBase.toNat + offset) 65535 + 1))

/-- The proxy without the peers that are itself. -/
def removeSelfPeers (c : ProxyConfig) (own : List IpAddress) : ProxyConfig :=
  { c with peers := c.peers.filter fun p => !p.isLocal c.port own }

end ProxyConfig
end Raop
