/-
# Relaying between the sender and the peers

The relay holds the peers, the packets passed on last, and the open timing
requests. Sound and control datagrams of the sender go to every peer. What a
peer sends on its control channel goes to the sender, unless it asks for
packets that are all kept; those it is given at once. A timing request of a
peer goes to the sender, and the response comes back to that peer alone; a
timing request of the sender is answered here.

Every function gives the relay after it and what is put out.

Key definitions: `Relay`, `Relay.forward`, `Relay.setup`, `Relay.broadcast`,
`Relay.fromSender`, `Relay.fromPeer`.
-/
import Raop.Datagram.Timing
import Raop.Moment
import Raop.Output
import Raop.Proxy.History
import Raop.Proxy.Peer
import Raop.Proxy.TimingKeys

namespace Raop

/-- The peers of a stream, and what is remembered of its datagrams. -/
structure Relay where
  peers : List Peer := []
  history : History
  /-- Open timing requests, each from a channel of a peer. -/
  keys : TimingKeys (Nat × Nat)
  /-- The sender's control channel, by the attempt that opened it. -/
  control : Option Nat := none
  /-- The sender's timing channel, by the attempt that opened it. -/
  timing : Option Nat := none
  deriving DecidableEq, Repr

namespace Relay

/-- Peers that are not usable are dropped. -/
def prune (r : Relay) : Relay × List Output :=
  ({ r with peers := r.peers.filter (·.alive) },
    (r.peers.filter fun p => !p.alive).map fun p => .disconnect p.index)

/-- Every peer is closed and forgotten. -/
def closePeers (r : Relay) : Relay × List Output :=
  ({ r with peers := [] }, r.peers.map fun p => .disconnect p.index)

/-- The sender's channels and what was remembered are forgotten. -/
def clear (r : Relay) : Relay :=
  { r with history := r.history.clear, keys := r.keys.clear, control := none, timing := none }

/-- The peer of an index. -/
def peer? (r : Relay) (index : Nat) : Option Peer := r.peers.find? fun p => p.index == index

/-- The peer of an index changed. -/
def modify (r : Relay) (index : Nat) (f : Peer → Peer) : Relay :=
  { r with peers := r.peers.map fun p => if p.index = index then f p else p }

/-- What a peer was to write. -/
def written (index : Nat) : Except Error Request → List Output
  | .ok request => [.request index request]
  | .error _ => []

/-- A request is written to every usable peer. -/
def forward (r : Relay) (request : Request) : Relay × List Output :=
  let (r, dropped) := r.prune
  let sent := r.peers.map fun p => p.send request
  ({ r with peers := sent.map (·.2) },
    dropped ++ sent.flatMap fun (result, p) => written p.index result)

/-- A SETUP is written to every usable peer, with ports of its own; a peer where that fails is closed. -/
def setup (binder : Nat → Binder) (request : Request) (r : Relay) : Relay × List Output :=
  let (r, dropped) := r.prune
  let sent := r.peers.map fun p => p.setup (binder p.index) request
  let finish (result : Except Error Request) (p : Peer) : Peer × List Output :=
    match result with
    | .ok request => (p, [.request p.index request])
    | .error _ => (p.lose, [.disconnect p.index])
  let done := sent.map fun (result, p) => finish result p
  ({ r with peers := done.map (·.1) }, dropped ++ done.flatMap (·.2))

/-- What leaves a peer's channel. -/
def toPeer (p : Peer) (c : Channel) (data : Bytes) : List Output :=
  match c.send data with
  | .ok target => [.peerDatagram p.index c.role target data]
  | .error _ => []

/-- A datagram goes to every usable peer whose channel of the role is connected. -/
def broadcast (r : Relay) (role : Role) (data : Bytes) : Relay × List Output :=
  let (r, dropped) := r.prune
  (r, dropped ++ r.peers.flatMap fun p =>
    match p.channel? role with
    | some c => if c.remote.isSome then toPeer p c data else []
    | none => [])

/-- A datagram goes to the sender, on the channel of an attempt if that is known. -/
def toSender (channels : ChannelSet) (id : Option Nat) (data : Bytes) : List Output :=
  match id.bind channels.find? with
  | none => []
  | some c =>
    match c.send data with
    | .ok target => [.datagram c.role target data]
    | .error _ => []

/-- A datagram is kept. -/
def record (r : Relay) (datagram : Bytes) : Relay := { r with history := r.history.record datagram }

/-- A control datagram of the sender: a packet sent again is kept, and all go to every peer. -/
def fromSenderControl (r : Relay) (data : Bytes) : Relay × List Output :=
  let r := match PayloadType.of data, RetransmitResponse.audioPacket data with
    | .ok .retransmitResponse, .ok packet => r.record packet
    | _, _ => r
  r.broadcast .control data

/-- A timing response of the sender goes to the peer whose request it answers. -/
def routeTiming (r : Relay) (now : Moment) (data : Bytes) : Relay × List Output :=
  match TimingPacket.rawTime? data TimingPacket.referenceAt with
  | none => (r, [])
  | some key =>
    let (origin, keys) := r.keys.resolve now.ticks key
    let out := match origin with
      | none => []
      | some (index, id) =>
        match r.peer? index with
        | none => []
        | some p =>
          match p.channels.find? id with
          | none => []
          | some c => toPeer p c data
    ({ r with keys }, out)

/-- A timing datagram of the sender: a response finds its peer, a request is answered. -/
def fromSenderTiming (r : Relay) (now : Moment) (c : Channel) (source : Endpoint) (data : Bytes) :
    Relay × List Output :=
  match PayloadType.of data with
  | .ok .timingResponse => r.routeTiming now data
  | .ok .timingRequest =>
    match TimingPacket.decode data with
    | .error _ => (r, [])
    | .ok packet =>
      let response := (packet.respond now.time now.time).encode
      match c.sendTo response source with
      | .ok target => (r, [.datagram c.role target response])
      | .error _ => (r, [])
  | _ => (r, [])

/-- A datagram of the sender, on the channel `c`. -/
def fromSender (r : Relay) (now : Moment) (c : Channel) (source : Endpoint) (data : Bytes) :
    Relay × List Output :=
  match c.role with
  | .audio => (r.record data).broadcast .audio data
  | .control => r.fromSenderControl data
  | .timing => r.fromSenderTiming now c source data

/-- A datagram on a peer's control channel: packets that are all kept are sent to the peer, anything
else goes to the sender. -/
def fromPeerControl (r : Relay) (channels : ChannelSet) (p : Peer) (c : Channel) (data : Bytes) :
    Relay × List Output :=
  let responses := match RetransmitRequest.decode data with
    | .ok request => r.history.retransmissions? request
    | .error _ => none
  match responses with
  | some responses => (r, responses.flatMap (toPeer p c))
  | none => (r, toSender channels r.control data)

/-- A datagram on a peer's timing channel: a request is remembered under its send time, and all go
to the sender. -/
def fromPeerTiming (r : Relay) (now : Moment) (channels : ChannelSet) (p : Peer) (c : Channel)
    (data : Bytes) : Relay × List Output :=
  let r := match PayloadType.of data, TimingPacket.rawTime? data TimingPacket.sendAt with
    | .ok .timingRequest, some key =>
      { r with keys := r.keys.observe now.ticks key (p.index, c.id) }
    | _, _ => r
  (r, toSender channels r.timing data)

/-- A datagram of a peer, on its channel `c`. What arrives on an audio channel is dropped. -/
def fromPeer (r : Relay) (now : Moment) (channels : ChannelSet) (p : Peer) (c : Channel)
    (data : Bytes) : Relay × List Output :=
  match c.role with
  | .audio => (r, [])
  | .control => r.fromPeerControl channels p c data
  | .timing => r.fromPeerTiming now channels p c data

end Relay
end Raop
