/-
# The player's session

A session takes the requests of one client and the datagrams on its channels.
The sink belongs to all sessions of a player; a session is given it with each
step and hands it back. What a step sends and tells is its output.

Key definitions: `PlayerContext`, `PlayerSession`, `Player`, `Player.handle`,
`Player.datagram`, `Player.tick`, `Player.reset`.
-/
import Raop.Audio.Gain
import Raop.ClockSync
import Raop.Moment
import Raop.Negotiation
import Raop.Output
import Raop.Parameters
import Raop.Player.Pipeline
import Raop.SessionState

namespace Raop

/-- What the sessions of a player have in common, the sink aside. -/
structure PlayerContext where
  ports : RtpPorts := {}
  privateKey : Option PrivateKey := none
  decoders : DecoderFactory := .lossless
  /-- The time between two timing requests. -/
  interval : Nat := 3000000000
  binder : Binder

/-- Channels are opened on the session's own address. -/
def PlayerContext.opener (ctx : PlayerContext) (ip : IpAddress) : Opener ChannelSet :=
  ChannelSet.opener ctx.binder ctx.ports ip

/-- Timing requests that go out at regular times. -/
structure TimingTask where
  sequence : UInt16 := 0
  /-- When the next request goes out. -/
  next : Nat
  deriving DecidableEq, Repr, Inhabited

/-- The session of a client. -/
structure PlayerSession where
  client : Endpoint
  localEnd : Endpoint
  state : SessionState := .idle
  stream : Option StreamDescription := none
  pipeline : Option Pipeline := none
  channels : ChannelSet := {}
  clock : ClockSync := {}
  timing : Option TimingTask := none
  /-- The client has set the volume. -/
  volumeKnown : Bool := false
  deriving Inhabited

/-- A session at work: with the sink, and what it has put out, in order. -/
structure Player where
  session : PlayerSession
  sink : Sink
  output : List Output := []
  deriving Inhabited

namespace Player

/-- An event is told. -/
def emit (p : Player) (e : Event) : Player := { p with output := p.output ++ [.event e] }

/-- A datagram is sent on the channel of a role, if that is possible. -/
def send (p : Player) (role : Role) (data : Bytes) : Player :=
  match p.session.channels.get? role with
  | none => p
  | some c =>
    match c.send data with
    | .ok target => { p with output := p.output ++ [.datagram role target data] }
    | .error _ => p

/-- The session changed. -/
def update (p : Player) (f : PlayerSession → PlayerSession) : Player :=
  { p with session := f p.session }

/-- The stream ends: its channels are closed, the sink is stopped if there was a pipeline, and the
session is idle. -/
def reset (p : Player) : Player :=
  let s := p.session
  { p with
    session := { s with
      state := .idle, stream := none, pipeline := none, channels := s.channels.closeAll
      clock := {}, timing := none }
    sink := if s.pipeline.isSome then p.sink.stop else p.sink }

/-- A stream is announced: it replaces the one before, once it is known to be playable. -/
def announce (ctx : PlayerContext) (request : Request) (p : Player) : Except Error Reply × Player :=
  match requireSdp request with
  | .error e => (.error e, p)
  | .ok () =>
    match StreamDescription.parse request.bodyText ctx.privateKey with
    | .error e => (.error (.sdp e), p)
    | .ok stream =>
      match Pipeline.ofStream ctx.decoders stream with
      | .error e => (.error e, p)
      | .ok pipeline =>
        let p := p.reset.emit (.streamAnnounced stream.isEncrypted)
        (.ok {}, p.update fun s =>
          { s with state := .announced, stream := some stream, pipeline := some pipeline })

/-- The transport is negotiated; if that fails no channel stays open. -/
def setup (ctx : PlayerContext) (request : Request) (p : Player) : Except Error Reply × Player :=
  let s := p.session
  match s.state.expect request.method [.announced] with
  | .error e => (.error e, p)
  | .ok () =>
    match request.headers.transport?, s.pipeline with
    | none, _ => (.error (.protocol "no Transport header"), p)
    | some _, none => (.error (.protocol "audio stream not configured"), p)
    | some value, some pipeline =>
      match Negotiation.negotiate (ctx.opener s.localEnd.ip) s.client.ip value s.channels with
      | (.error e, channels) => (.error e, { p with session := { s with channels := channels.closeAll } })
      | (.ok transport, channels) =>
        let hasControl := (channels.get? .control).isSome
        let reply := ({} : Reply).withHeader "Transport" transport.render |>.withSession sessionId
        (.ok reply, { p with session := { s with
          state := .setUp, channels, pipeline := some { pipeline with hasControl } } })

/-- Timing requests that are due go out. -/
def sendDue (interval : Nat) (now : Moment) : Nat → Player → Player
  | 0, p => p
  | n + 1, p =>
    match p.session.timing with
    | none => p
    | some t =>
      if now.ticks < t.next then p
      else
        let packet := TimingPacket.request t.sequence now.time
        let p := p.send .timing packet.encode
        sendDue interval now n (p.update fun s =>
          { s with timing := some { sequence := t.sequence + 1, next := t.next + interval } })

/-- Time has passed. -/
def tick (ctx : PlayerContext) (now : Moment) (p : Player) : Player :=
  match p.session.timing with
  | none => p
  | some t => sendDue ctx.interval now ((now.ticks - t.next) / max ctx.interval 1 + 1) p

/-- Timing requests start, if there is a channel for them and a time between them; the first is due at
once, and goes out with the next step of time. -/
def startTiming (ctx : PlayerContext) (now : Moment) (p : Player) : Player :=
  let remote := (p.session.channels.get? .timing).bind (·.remote)
  let timing := if ctx.interval = 0 then none
    else remote.map fun _ => ({ next := now.ticks } : TimingTask)
  p.update fun s => { s with timing }

/-- Playing starts or goes on. -/
def record (ctx : PlayerContext) (now : Moment) (request : Request) (p : Player) :
    Except Error Reply × Player :=
  let s := p.session
  match s.pipeline with
  | none => (.error (.protocol "audio stream not configured"), p)
  | some pipeline =>
    match s.state.expect request.method SessionState.active with
    | .error e => (.error e, p)
    | .ok () =>
      let (started, p) : Except Error Unit × Player :=
        if s.state = .setUp then
          let (result, b) := ({ pipeline, sink := p.sink : Playback }).start
          (result, { p with sink := b.sink })
        else (.ok (), p)
      match started with
      | .error e => (.error e, p)
      | .ok () =>
        let p := if s.state = .setUp then p.startTiming ctx now else p
        let p := if s.state = .recording then p else p.emit .recordingStarted
        (.ok {}, p.update fun s => { s with state := .recording })

/-- The pipeline at work on the sink, and the requests it makes sent on the control channel. -/
def play (p : Player) (f : Playback → Playback) : Player :=
  match p.session.pipeline with
  | none => p
  | some pipeline =>
    let b := f { pipeline, sink := p.sink }
    let p := { p with session := { p.session with pipeline := some b.pipeline }, sink := b.sink }
    b.asked.foldl (fun p r => p.send .control r.encode) p

/-- What was not played yet is dropped. -/
def flush (request : Request) (p : Player) : Except Error Reply × Player :=
  match p.session.state.expect request.method SessionState.streaming with
  | .error e => (.error e, p)
  | .ok () =>
    let p := (p.play Playback.flush).emit .flushed
    (.ok {}, p.update fun s => { s with state := .flushed })

/-- The gain range of the sink. -/
def gainMapping (p : Player) : GainMapping := { min := p.sink.minGain, max := p.sink.maxGain }

/-- The volume changes. -/
def applyVolume (p : Player) (db : Float32) : Player :=
  let p := { p with sink := p.sink.setGain (p.gainMapping.toDevice db) }
  (p.update fun s => { s with volumeKnown := true }).emit (.volumeChanged db)

/-- Parameters one after the other; those before the first bad volume have their effect. -/
def applyParameters (p : Player) : List (String × String) → Except Error Reply × Player
  | [] => (.ok {}, p)
  | (name, value) :: rest =>
    if name = Parameters.volume then
      match Parameters.parseVolume value with
      | .error e => (.error e, p)
      | .ok db => (p.applyVolume db).applyParameters rest
    else p.applyParameters rest

/-- Parameters are set; bodies of other media types are accepted and ignored. -/
def setParameter (request : Request) (p : Player) : Except Error Reply × Player :=
  match p.session.state.expect request.method SessionState.active with
  | .error e => (.error e, p)
  | .ok () =>
    if Parameters.areIn request then
      match Parameters.parse request.bodyText with
      | .error e => (.error e, p)
      | .ok parameters => p.applyParameters parameters
    else (.ok {}, p)

/-- The volume, once the client has set it. -/
def getParameter (p : Player) : Reply :=
  if p.session.volumeKnown then
    let db := p.gainMapping.toDecibels p.sink.gain
    ({} : Reply).withText (Parameters.volumeBody (Parameters.formatVolume db))
  else {}

/-- The session ends. -/
def teardown (p : Player) : Player :=
  (p.reset.update fun s => { s with state := .tornDown }).emit .tornDown

/-- A request is answered. -/
def handle (ctx : PlayerContext) (now : Moment) (request : Request) (p : Player) :
    Except Error Reply × Player :=
  match request.method with
  | .options => (.ok (({} : Reply).withHeader "Public" Method.publicList), p)
  | .announce => p.announce ctx request
  | .setup => p.setup ctx request
  | .record => p.record ctx now request
  | .flush | .pause => p.flush request
  | .setParameter => p.setParameter request
  | .getParameter => (.ok p.getParameter, p)
  | .teardown => (.ok {}, p.teardown)
  | .other token => (.error (.notImplemented token), p)

/-- A datagram on the timing channel: a request is answered to its sender, a response moves the clock. -/
def onTiming (now : Moment) (source : Endpoint) (datagram : Bytes) (c : Channel) (p : Player) :
    Player :=
  match TimingPacket.decode datagram with
  | .error _ => p
  | .ok packet =>
    if packet.isResponse then
      let clock := p.session.clock.update packet now.time
      { p.update (fun s => { s with clock }) with sink := p.sink.setClockOffset clock.offset }
    else
      let response := (packet.respond now.time now.time).encode
      match c.sendTo response source with
      | .ok target => { p with output := p.output ++ [.datagram .timing target response] }
      | .error _ => p

/-- A datagram arrives on the channel of a role. -/
def datagram (now : Moment) (role : Role) (source : Endpoint) (data : Bytes) (p : Player) :
    Player :=
  match p.session.channels.get? role with
  | none => p
  | some c =>
    if c.accepts source then
      let data := Channel.taken data
      match role with
      | .audio => p.play (·.onAudio data)
      | .control => p.play (·.onControl data)
      | .timing => p.onTiming now source data c
    else p

end Player
end Raop
