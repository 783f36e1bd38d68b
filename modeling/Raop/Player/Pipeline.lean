/-
# From datagrams to sound

A pipeline takes the datagrams of a stream: an audio packet is tracked, a gap
in front of it is asked for again on the control channel, and its payload is
decrypted, decoded and given to the sink. A retransmitted packet goes the same
way but is not tracked.

Key definitions: `Pipeline`, `Pipeline.ofStream`, `Pipeline.audio`, `Pipeline.retransmitted`,
`Pipeline.onAudio`, `Pipeline.onControl`.
-/
import Raop.Datagram.Retransmit
import Raop.Datagram.Sync
import Raop.Error
import Raop.SequenceTracker

namespace Raop

/-- The way of a stream to the sink. -/
structure Pipeline where
  decoder : Decoder
  decryptor : Option Decryptor
  tracker : SequenceTracker := {}
  /-- There is a control channel to ask on. -/
  hasControl : Bool := false
  /-- Requests made so far, modulo 2^16. -/
  requests : UInt16 := 0
  deriving DecidableEq, Repr, Inhabited

/-- A pipeline and its sink, with the requests to send on the control channel. -/
structure Playback where
  pipeline : Pipeline
  sink : Sink
  /-- Requests for packets, in order. -/
  asked : List RetransmitRequest := []
  deriving Inhabited

namespace Pipeline

/-- The pipeline of a stream, if there is a decoder for it. -/
def ofStream (factory : DecoderFactory) (stream : StreamDescription) : Except Error Pipeline :=
  match factory.create stream with
  | .ok decoder => .ok { decoder, decryptor := stream.keys }
  | .error e => .error (.decode e)

/-- The samples of a packet. -/
def samples (p : Pipeline) (packet : AudioPacket) : Except Error (List Int16) :=
  let payload := match p.decryptor with
    | some d => d.decrypt packet.payload
    | none => packet.payload
  match p.decoder.decode payload with
  | .ok s => .ok s
  | .error e => .error (.decode e)

/-- A packet given to the sink. -/
def deliver (p : Pipeline) (packet : AudioPacket) (sink : Sink) : Except Error Sink :=
  match p.samples packet with
  | .error e => .error e
  | .ok samples =>
    match sink.enqueue packet.timestamp samples with
    | .ok sink => .ok sink
    | .error e => .error (.sink e)

end Pipeline

namespace Playback

/-- A gap is asked for, if there is a channel to ask on. -/
def request (b : Playback) (gap : Gap) : Playback :=
  if b.pipeline.hasControl then
    let r : RetransmitRequest :=
      { sequence := b.pipeline.requests, start := gap.start, count := gap.count }
    { b with
      pipeline := { b.pipeline with requests := b.pipeline.requests + 1 }
      asked := b.asked ++ [r] }
  else b

/-- A packet given to the sink; the sink stays as it is if that fails. -/
def deliver (b : Playback) (packet : AudioPacket) : Except Error Unit × Playback :=
  match b.pipeline.deliver packet b.sink with
  | .ok sink => (.ok (), { b with sink })
  | .error e => (.error e, b)

/-- An audio packet: tracked, its gap asked for, and given to the sink. -/
def audio (b : Playback) (datagram : Bytes) : Except Error Unit × Playback :=
  match AudioPacket.decode datagram with
  | .error e => (.error (.packet e), b)
  | .ok packet =>
    let (tracker, gap) := b.pipeline.tracker.record packet.sequence
    let b := { b with pipeline := { b.pipeline with tracker } }
    let b := match gap with
      | some gap => b.request gap
      | none => b
    b.deliver packet

/-- A retransmitted packet, given to the sink. -/
def retransmitted (b : Playback) (datagram : Bytes) : Except Error Unit × Playback :=
  match RetransmitResponse.audioPacket datagram with
  | .error e => (.error (.packet e), b)
  | .ok inner =>
    match AudioPacket.decode inner with
    | .error e => (.error (.packet e), b)
    | .ok packet => b.deliver packet

/-- A datagram on the audio channel: audio packets count, anything else is dropped. -/
def onAudio (b : Playback) (datagram : Bytes) : Playback :=
  match PayloadType.of datagram with
  | .ok t => if t.isAudio then (b.audio datagram).2 else b
  | .error _ => b

/-- A datagram on the control channel: sync packets and retransmitted packets count. -/
def onControl (b : Playback) (datagram : Bytes) : Playback :=
  match PayloadType.of datagram with
  | .ok .sync =>
    match SyncPacket.decode datagram with
    | .ok p => { b with sink := b.sink.sync p.rtp p.ntp }
    | .error _ => b
  | .ok .retransmitResponse => (b.retransmitted datagram).2
  | _ => b

/-- What was not played yet is dropped, and tracking starts anew. -/
def flush (b : Playback) : Playback :=
  { b with sink := b.sink.flush, pipeline := { b.pipeline with tracker := {} } }

/-- Playing starts in the stream's format. -/
def start (b : Playback) : Except Error Unit × Playback :=
  match b.sink.start b.pipeline.decoder.format with
  | .ok sink => (.ok (), { b with sink })
  | .error e => (.error (.sink e), b)

/-- Playing stops. -/
def stop (b : Playback) : Playback := { b with sink := b.sink.stop }

end Playback
end Raop
