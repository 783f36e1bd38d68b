/-
# The proxy's session

A session takes the requests of one sender and passes them on to every peer.
A request that is accepted is answered once every peer has answered or is gone,
or time is up; ANNOUNCE connects to the peers first. So a request begins in one
step and may end in a later one; what it waits for is part of the session, and
so is the answer until it is taken.

Key definitions: `ProxyContext`, `Wait`, `Proxy`, `Proxy.begin`, `Proxy.tick`,
`Proxy.connected`, `Proxy.refused`, `Proxy.peerData`, `Proxy.peerLost`, `Proxy.datagram`,
`Proxy.peerDatagram`, `Proxy.reset`.
-/
import Raop.Config.Proxy
import Raop.Negotiation
import Raop.Parameters
import Raop.Proxy.Relay
import Raop.Sdp.Stream
import Raop.SessionState

namespace Raop

/-- What the sessions of a proxy have in common. -/
structure ProxyContext where
  config : ProxyConfig
  /-- How the sender's channels are opened. -/
  binder : Binder
  /-- How the channels of the peer at a position are opened. -/
  peerBinder : Nat → Binder

/-- What a request waits for. -/
inductive Wait where
  /-- Connections to the peers at these positions, until a time. -/
  | connecting (request : Request) (pending : List Nat) (found : List Peer) (deadline : Nat)
  /-- Answers of the peers at these positions, until a time; then this is the reply. -/
  | answering (request : Request) (reply : Reply) (members : List Nat) (barrier : Barrier)
      (deadline : Nat)
  deriving Repr

/-- A proxy's session at work: what it waits for, the answer not taken yet, and what it has put
out, in order. -/
structure Proxy where
  client : Endpoint
  localEnd : Endpoint
  state : SessionState := .idle
  channels : ChannelSet := {}
  relay : Relay
  volume : Option String := none
  wait : Option Wait := none
  answer : Option (Except Error Reply) := none
  output : List Output := []

namespace Proxy

/-- The session of a client. -/
def ofClient (ctx : ProxyContext) (client localEnd : Endpoint) : Proxy :=
  { client, localEnd
    relay :=
      { history := { capacity := ctx.config.historyCapacity }
        keys := { ttl := ctx.config.timingKeyTtl.toNanos } } }

/-- More is put out. -/
def put (p : Proxy) (out : List Output) : Proxy := { p with output := p.output ++ out }

/-- An event is told. -/
def emit (p : Proxy) (e : Event) : Proxy := p.put [.event e]

/-- The relay has worked. -/
def withRelay (p : Proxy) (result : Relay × List Output) : Proxy :=
  { p with relay := result.1 }.put result.2

/-- The peers are closed. -/
def closePeers (p : Proxy) : Proxy := p.withRelay p.relay.closePeers

/-- What was remembered of the stream is forgotten. -/
def clearRelay (p : Proxy) : Proxy := { p with relay := p.relay.clear }

/-- The sender's channels are closed. -/
def closeChannels (p : Proxy) : Proxy := { p with channels := p.channels.closeAll }

/-- The stream ends: the peers are closed, then nothing of it is remembered, then the channels are
closed, and the session is idle. -/
def reset (p : Proxy) : Proxy :=
  { p.closePeers.clearRelay.closeChannels with volume := none, state := .idle }

/-- A text stands somewhere in another one. -/
def occurs (text : List Char) : List Char → Bool
  | [] => text.isEmpty
  | c :: cs => text.isPrefixOf (c :: cs) || occurs text cs

/-- A description says that its stream is encrypted. -/
def announcesKey (body : String) : Bool := occurs "a=rsaaeskey:".toList body.toList

/-- A request has been passed on: the session goes to its state, tells the event, and answers. -/
def complete (request : Request) (reply : Reply) (p : Proxy) : Proxy :=
  let p := match request.method with
    | .announce =>
      { p.emit (.streamAnnounced (announcesKey request.bodyText)) with state := .announced }
    | .setup => { p with state := .setUp }
    | .record =>
      let told := if p.state = SessionState.recording then p else p.emit .recordingStarted
      { told with state := .recording }
    | .flush | .pause => { p with state := .flushed }.emit .flushed
    | .teardown => { p.reset with state := .tornDown }.emit .tornDown
    | _ => p
  { p with wait := none, answer := some (.ok reply) }

/-- The wait for the peers' answers, which is over at once if the request has no sequence number or
no peer is awaited. -/
def await (ctx : ProxyContext) (now : Moment) (request : Request) (reply : Reply) (p : Proxy) :
    Proxy :=
  match request.headers.cseq? with
  | none => p.complete request reply
  | some cseq =>
    let p := p.withRelay p.relay.prune
    let barrier := Barrier.start cseq (p.relay.peers.map (·.cell))
    if barrier.reached then p.complete request reply
    else
      let members := p.relay.peers.map (·.index)
      let deadline := now.ticks + ctx.config.barrierTimeout.toNanos
      { p with wait := some (.answering request reply members barrier deadline) }

/-- A request is passed on to every peer. -/
def replicate (ctx : ProxyContext) (now : Moment) (request : Request) (p : Proxy) : Proxy :=
  (p.withRelay (p.relay.forward request)).await ctx now request {}

/-- A request is refused. -/
def refuse (p : Proxy) (e : Error) : Proxy := { p with answer := some (.error e) }

/-- A request is passed on if the session's state admits it. -/
def replicateIn (ctx : ProxyContext) (now : Moment) (allowed : List SessionState)
    (request : Request) (p : Proxy) : Proxy :=
  match p.state.expect request.method allowed with
  | .error e => p.refuse e
  | .ok () => p.replicate ctx now request

/-- The connections are there, as far as there will be any: the stream is announced to them. -/
def announceTo (ctx : ProxyContext) (now : Moment) (request : Request) (found : List Peer)
    (p : Proxy) : Proxy :=
  { p with wait := none, relay := { p.relay with peers := found } }.replicate ctx now request

/-- A stream is announced: it replaces the one before, and the peers are connected to. -/
def announce (ctx : ProxyContext) (now : Moment) (request : Request) (p : Proxy) : Proxy :=
  match requireSdp request with
  | .error e => p.refuse e
  | .ok () =>
    match StreamDescription.validate request.bodyText with
    | .error e => p.refuse (.sdp e)
    | .ok _ =>
      let p := p.reset
      match ctx.config.peers with
      | [] => p.announceTo ctx now request []
      | peers =>
        let deadline := now.ticks + ctx.config.connectTimeout.toNanos
        { p with wait := some (.connecting request (List.range peers.length) [] deadline) }.put
          (peers.mapIdx fun i a => .connect i a)

/-- The transport is negotiated, and every peer is set up; if the negotiation fails no channel stays
open. -/
def setup (ctx : ProxyContext) (now : Moment) (request : Request) (p : Proxy) : Proxy :=
  match p.state.expect request.method [.announced] with
  | .error e => p.refuse e
  | .ok () =>
    match request.headers.transport? with
    | none => p.refuse (.protocol "no Transport header")
    | some value =>
      let opener := ChannelSet.opener ctx.binder ctx.config.localPorts p.localEnd.ip
      match Negotiation.negotiate opener p.client.ip value p.channels with
      | (.error e, channels) => { p with channels := channels.closeAll }.refuse e
      | (.ok transport, channels) =>
        let relay := { p.relay with
          control := (channels.get? .control).map Channel.id
          timing := (channels.get? .timing).map Channel.id }
        let p := { p with channels }.withRelay (relay.setup ctx.peerBinder request)
        let reply := ({} : Reply).withHeader "Transport" transport.render |>.withSession sessionId
        p.await ctx now request reply

/-- The volume in a list of parameters, the last one of several. -/
def lastVolume (parameters : List (String × String)) : Option String :=
  ((parameters.filter fun e => e.1 = Parameters.volume).getLast?).map fun e => Text.trim e.2

/-- Parameters are passed on, and the volume among them is remembered. -/
def setParameter (ctx : ProxyContext) (now : Moment) (request : Request) (p : Proxy) : Proxy :=
  match p.state.expect request.method SessionState.active with
  | .error e => p.refuse e
  | .ok () =>
    if Parameters.areIn request then
      match Parameters.parse request.bodyText with
      | .error e => p.refuse e
      | .ok parameters =>
        { p with volume := (lastVolume parameters).or p.volume }.replicate ctx now request
    else p.replicate ctx now request

/-- The volume, if one is remembered. -/
def getParameter (p : Proxy) : Reply :=
  match p.volume with
  | some volume => ({} : Reply).withText (Parameters.volumeBody volume)
  | none => {}

/-- A request begins. -/
def start (ctx : ProxyContext) (now : Moment) (request : Request) (p : Proxy) : Proxy :=
  match request.method with
  | .options =>
    { p with answer := some (.ok (({} : Reply).withHeader "Public" Method.publicList)) }
  | .announce => p.announce ctx now request
  | .setup => p.setup ctx now request
  | .record => p.replicateIn ctx now SessionState.active request
  | .flush | .pause => p.replicateIn ctx now SessionState.streaming request
  | .setParameter => p.setParameter ctx now request
  | .getParameter => { p with answer := some (.ok p.getParameter) }
  | .teardown => p.replicate ctx now request
  | .other token => p.refuse (.notImplemented token)

/-- When the wait is over at the latest. -/
def deadline? (p : Proxy) : Option Nat :=
  p.wait.map fun w => match w with
    | .connecting _ _ _ deadline => deadline
    | .answering _ _ _ _ deadline => deadline

/-- Time has passed. -/
def tick (ctx : ProxyContext) (now : Moment) (p : Proxy) : Proxy :=
  match p.wait with
  | some (.connecting request _ found deadline) =>
    if now.ticks < deadline then p else p.announceTo ctx now request found
  | some (.answering request reply _ _ deadline) =>
    if now.ticks < deadline then p else p.complete request reply
  | none => p

/-- Peers in the order of their positions, with one more. -/
def place (peer : Peer) : List Peer → List Peer
  | [] => [peer]
  | q :: qs => if q.index < peer.index then q :: place peer qs else peer :: q :: qs

/-- An attempt to connect is decided. -/
def decided (ctx : ProxyContext) (now : Moment) (index : Nat) (ip : Option IpAddress) (p : Proxy) :
    Proxy :=
  match p.wait with
  | some (.connecting request pending found deadline) =>
    if pending.contains index then
      let found := match ip, ctx.config.peers[index]? with
        | some ip, some address =>
          place { index, address, ip, ports := ctx.config.peerPorts index } found
        | _, _ => found
      let pending := pending.erase index
      if pending.isEmpty then p.announceTo ctx now request found
      else { p with wait := some (.connecting request pending found deadline) }
    else p
  | _ => p

/-- The connection to the peer at a position is there. -/
def connected (ctx : ProxyContext) (now : Moment) (index : Nat) (ip : IpAddress) (p : Proxy) : Proxy :=
  p.decided ctx now index (some ip)

/-- There is no connection to the peer at a position. -/
def refused (ctx : ProxyContext) (now : Moment) (index : Nat) (p : Proxy) : Proxy :=
  p.decided ctx now index none

/-- Something happened to the peer at a position; a wait for it may be over with that. -/
def onPeer (index : Nat) (f : Peer → Peer) (p : Proxy) : Proxy :=
  let p := { p with relay := p.relay.modify index f }
  match p.wait with
  | some (.connecting request pending found deadline) =>
    let found := found.map fun q => if q.index = index then f q else q
    { p with wait := some (.connecting request pending found deadline) }
  | some (.answering request reply members barrier deadline) =>
    match members.idxOf? index, p.relay.peer? index with
    | some i, some peer =>
      let change := if peer.cell.isOpen then .answered peer.cell.seen else .closed
      let barrier := barrier.note i change
      if barrier.reached then p.complete request reply
      else { p with wait := some (.answering request reply members barrier deadline) }
    | _, _ => p
  | none => p

/-- Octets arrived on the connection of the peer at a position. -/
def peerData (ctx : ProxyContext) (index : Nat) (data : Bytes) (p : Proxy) : Proxy :=
  p.onPeer index (Peer.read (ctx.peerBinder index) data)

/-- The connection of the peer at a position has ended or failed. -/
def peerLost (index : Nat) (p : Proxy) : Proxy := p.onPeer index Peer.lose

/-- Nothing can be written to the peer at a position any more. -/
def peerBroken (index : Nat) (p : Proxy) : Proxy :=
  p.onPeer index fun peer => { peer with broken := true }

/-- A datagram of the sender arrives on the channel of a role. -/
def datagram (now : Moment) (role : Role) (source : Endpoint) (data : Bytes) (p : Proxy) : Proxy :=
  match p.channels.get? role with
  | none => p
  | some c =>
    if c.accepts source then p.withRelay (p.relay.fromSender now c source (Channel.taken data))
    else p

/-- A datagram arrives on the channel of a role that faces the peer at a position. -/
def peerDatagram (now : Moment) (index : Nat) (role : Role) (source : Endpoint) (data : Bytes)
    (p : Proxy) : Proxy :=
  match p.relay.peer? index with
  | none => p
  | some peer =>
    match peer.channels.get? role with
    | none => p
    | some c =>
      if c.accepts source then
        p.withRelay (p.relay.fromPeer now p.channels peer c (Channel.taken data))
      else p

end Proxy
end Raop
