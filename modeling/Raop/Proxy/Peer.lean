/-
# Downstream receivers

A peer is a connection on which requests are written and responses are read,
and the channels that face it. A SETUP goes out with the peer's own control and
timing ports; whatever response succeeds and names ports connects the channels
to them, and opens the audio channel. Reading ends for good with the end of the
connection or with anything that is no response, and the channels end with it.

Key definitions: `Peer`, `Peer.setup`, `Peer.wire`, `Peer.read`, `Peer.lose`.
-/
import Raop.Message.Reader
import Raop.Net.Channel
import Raop.Net.Ports
import Raop.Proxy.Barrier
import Raop.Proxy.PeerAddress

namespace Raop

/-- A downstream receiver that is connected. -/
structure Peer where
  /-- The position among the configured peers. -/
  index : Nat
  address : PeerAddress
  /-- Where the connection leads. -/
  ip : IpAddress
  /-- The local ports of the channels. -/
  ports : RtpPorts
  channels : ChannelSet := {}
  /-- The channels in use, by the attempts that opened them. -/
  handles : List (Role × Nat) := []
  reader : ResponseReader := {}
  /-- The last sequence number answered, and whether responses are read. -/
  cell : Cell := {}
  /-- The connection is usable. -/
  alive : Bool := true
  /-- Nothing can be written on the connection any more. -/
  broken : Bool := false
  deriving DecidableEq, Repr, Inhabited

namespace Peer

/-- The channel in use for a role. -/
def channel? (p : Peer) (role : Role) : Option Channel :=
  (p.handles.lookup role).bind p.channels.find?

/-- The peer with a channel in use for its role. -/
def use (p : Peer) (c : Channel) : Peer :=
  { p with handles := (c.role, c.id) :: p.handles.filter fun h => h.1 ≠ c.role }

/-- The peer is lost: nothing is read of it any more, and its channels are closed. -/
def lose (p : Peer) : Peer :=
  { p with
    alive := false, cell := p.cell.after .closed, handles := [], channels := p.channels.closeAll }

/-- A request is written, unless that is impossible; then the peer is not usable any more. -/
def send (p : Peer) (request : Request) : Except Error Request × Peer :=
  if p.broken then
    let context := "send " ++ request.method.token ++ " to peer " ++ p.address.render
    (.error (.network context "broken pipe"), { p with alive := false })
  else (.ok request, p)

/-- A transport with the ports of a peer for those of the client. -/
def facing (t : Transport) (control timing : UInt16) : Transport :=
  let t := (t.replace? Transport.controlPort (Text.natText control.toNat)).getD t
  (t.replace? Transport.timingPort (Text.natText timing.toNat)).getD t

/-- The control and the timing channel are opened, unconnected. -/
def openChannels (binder : Binder) (p : Peer) : Except Error (Channel × Channel) × Peer :=
  let ip := p.ip.unspecifiedLike
  match p.channels.openRole binder .control ⟨ip, p.ports.control⟩ none with
  | (.error e, channels) => (.error e, { p with channels })
  | (.ok control, channels) =>
    match channels.openRole binder .timing ⟨ip, p.ports.timing⟩ none with
    | (.error e, channels) => (.error e, { p with channels })
    | (.ok timing, channels) =>
      (.ok (control, timing), ({ p with channels }.use control).use timing)

/-- A SETUP is written, with the ports of the peer's own channels. -/
def setup (binder : Binder) (request : Request) (p : Peer) : Except Error Request × Peer :=
  match request.headers.transport? with
  | none => (.error (.protocol "no Transport header"), p)
  | some value =>
    match Transport.parse value with
    | .error e => (.error (.transport e), p)
    | .ok t =>
      match p.openChannels binder with
      | (.error e, p) => (.error e, p)
      | (.ok (control, timing), p) =>
        p.send (request.withHeader "Transport" (facing t control.port timing.port).render)

/-- The channel of a role connected to the port under a key, if there are both; nothing if the port
is malformed or the channel refuses. -/
def point (t : Transport) (key : String) (role : Role) (p : Peer) : Option Peer :=
  match t.port? key with
  | .error _ => none
  | .ok none => some p
  | .ok (some port) =>
    match p.channel? role with
    | none => some p
    | some c =>
      match c.connect ⟨p.ip, port⟩ with
      | .error _ => none
      | .ok c' => some { p with channels := p.channels.modify c.id fun _ => c' }

/-- The audio channel opened toward a port, instead of the one there was. -/
def openAudio (binder : Binder) (port : UInt16) (p : Peer) : Peer :=
  let localEnd : Endpoint := ⟨p.ip.unspecifiedLike, p.ports.audio⟩
  match p.channels.openRole binder .audio localEnd (some ⟨p.ip, port⟩) with
  | (.ok c, channels) => { p with channels }.use c
  | (.error _, channels) => { p with channels }

/-- The channels connected to the ports that a transport names, up to the first that fails. -/
def wire (binder : Binder) (t : Transport) (p : Peer) : Peer :=
  match p.point t Transport.controlPort .control with
  | none => p
  | some p =>
    match p.point t Transport.timingPort .timing with
    | none => p
    | some p =>
      match t.port? Transport.serverPort with
      | .ok (some port) => p.openAudio binder port
      | _ => p

/-- A response arrived: its ports are taken if it succeeded, and its sequence number is noted
in any case. -/
def respond (binder : Binder) (p : Peer) (response : Response) : Peer :=
  let p := match response.status.isSuccess, response.headers.transport?.map Transport.parse with
    | true, some (.ok t) => p.wire binder t
    | _, _ => p
  match response.headers.cseq? with
  | some cseq => { p with cell := p.cell.after (.answered cseq) }
  | none => p

/-- Octets arrived on the connection. -/
def read (binder : Binder) (data : Bytes) (p : Peer) : Peer :=
  if !p.cell.isOpen then p
  else
    match p.reader.feed data with
    | .error _ => p.lose
    | .ok reader =>
      let (responses, failure, reader) := reader.drain
      let p := responses.foldl (respond binder) { p with reader }
      if failure.isSome then p.lose else p

end Peer
end Raop
