/-
# A session and its surroundings

A scene is a machine on which a session runs between a sender and receivers
that answer by rule: the sender's three sockets, the receivers, the clock, and
a server with the session as its only client. What the session puts out is
carried to where it is meant for, and what that causes comes back to the
session, until nothing happens any more without time. On a machine without
routes nothing can be connected to or sent.

What is seen from outside since a scene was last looked at is its trace.

Key definitions: `Trace`, `Scene`, `Scene.react`, `Scene.settle`, `Scene.advanceTo`, `Scene.await`.
-/
import Raop.Scene.Receiver
import Raop.Server
import Raop.Session

namespace Raop

/-- What was seen, each in order. -/
structure Trace where
  events : List Event := []
  /-- Datagrams at the sender's sockets. -/
  arrived : List (Role × Bytes) := []
  /-- Responses on the sender's connection. -/
  responses : List Response := []
  /-- Requests at the receiver of an index, as it reads them. -/
  requests : List (Nat × Request) := []
  /-- Datagrams at the sockets of the receiver of an index. -/
  received : List (Nat × Role × Bytes) := []
  deriving Inhabited

namespace Trace

/-- The requests at the receiver of an index. -/
def requestsAt (t : Trace) (index : Nat) : List Request :=
  (t.requests.filter fun r => r.1 == index).map (·.2)

/-- The datagrams at the sockets of the receiver of an index. -/
def receivedAt (t : Trace) (index : Nat) : List (Role × Bytes) :=
  (t.received.filter fun d => d.1 == index).map (·.2)

end Trace

/-- A session and what surrounds it. -/
structure Scene where
  name : String
  context : SessionContext
  connection : ConnectionContext
  /-- The sender's address. -/
  host : IpAddress
  /-- Anything can be connected to or sent. -/
  routed : Bool
  /-- The session is spoken to without a connection. -/
  direct : Bool
  receivers : List Receiver
  server : Server Unit Session
  /-- The clock that measures spans, in nanoseconds. -/
  ticks : Nat := 0
  /-- The time of day, which stands still. -/
  time : NtpTime := .ofWord 0xE000000000000001
  /-- The channels that the last transport on the connection named. -/
  named : List Role := []
  trace : Trace := {}

namespace Scene

/-- The port of the sender's socket of a role. -/
def senderPort (role : Role) : UInt16 := .ofNat (41000 + role.ordinal)

/-- The sender's socket of a role. -/
def senderSocket (s : Scene) (role : Role) : Endpoint := ⟨s.host, senderPort role⟩

/-- The instant. -/
def moment (s : Scene) : Moment := ⟨s.ticks, s.time⟩

/-- How the server deals with its client. -/
def serverContext (s : Scene) : ServerContext Unit Session :=
  { name := s.name, connection := s.connection, handler := (Session.handler s.context s.moment).alone }

/-- The session. -/
def session? (s : Scene) : Option Session := s.server.clients.head?.map Client.session

/-- The connection. -/
def stream? (s : Scene) : Option Connection := s.server.clients.head?.map Client.connection

/-- The session does something. -/
def onSession {α : Type} (f : Session → α × Session) (s : Scene) : Option α × Scene :=
  match s.server.clients with
  | [] => (none, s)
  | c :: cs =>
    let (a, session) := f c.session
    (some a, { s with server := { s.server with clients := { c with session } :: cs } })

/-- The session changes. -/
def changeSession (f : Session → Session) (s : Scene) : Scene :=
  (s.onSession fun v => ((), f v)).2

/-- The session of a proxy changes. -/
def changeProxy (f : Proxy → Proxy) (s : Scene) : Scene :=
  s.changeSession fun v => match v with
    | .proxy p => .proxy (f p)
    | v => v

/-- Something is seen. -/
def observe (f : Trace → Trace) (s : Scene) : Scene := { s with trace := f s.trace }

/-- The channels that a response names. -/
def namedBy (r : Response) : Option (List Role) :=
  r.headers.transport?.map fun value =>
    let keys := match Transport.parse value with
      | .ok t => t.options.map TransportOption.key
      | .error _ => []
    [(Role.audio, Transport.serverPort), (.control, Transport.controlPort),
      (.timing, Transport.timingPort)].filterMap fun (role, key) =>
        if keys.contains key then some role else none

/-- The server has a turn. -/
def serve (f : ServerContext Unit Session → Server Unit Session → List Response × Server Unit Session)
    (s : Scene) : Scene :=
  let (written, server) := f s.serverContext s.server
  { s with server, named := ((written.filterMap namedBy).getLast?).getD s.named }.observe fun t =>
    { t with responses := t.responses ++ written }

/-- Something happens to the connection. -/
def onStream (f : Connection → Connection) (s : Scene) : Scene :=
  s.serve fun ctx v => v.serve ctx 0 f

/-- The server starts, if it gets a port, and the session's client comes to it. -/
def listen (granted : Option UInt16) (s : Scene) : Except ServerError Scene :=
  match s.server.start s.serverContext granted with
  | (.error e, _) => .error e
  | (.ok _, server) =>
    .ok { s with server := s.server.clients.foldl (fun v c => v.accept c.ip c.session) server }

/-- What the server has told is seen. -/
def hear (s : Scene) : Scene :=
  { s with server := { s.server with events := [] } }.observe fun t =>
    { t with events := t.events ++ s.server.events }

/-- A peer's request arrives at its receiver, which does what its rules say. -/
def ask (v : Receiver) (request : Request) (s : Scene) : Scene :=
  let seen := match ((({} : RequestReader).feed request.encode).next).1 with
    | .ok (some r) => [(v.index, r)]
    | _ => []
  let s := s.observe fun t => { t with requests := t.requests ++ seen }
  let back (data : Bytes) := s.changeProxy (Proxy.peerData s.context.proxy v.index data)
  match v.conduct request with
  | .silent => s
  | .leave => s.changeProxy (Proxy.peerLost v.index)
  | .raw data => back data
  | .answer status cseq transport => back (v.respond request status cseq transport).encode

/-- What becomes of an attempt to connect to the receiver of an index. -/
def reach (s : Scene) (index : Nat) : Reach :=
  if s.routed then ((s.receivers[index]?).map Receiver.reach).getD .refused else .refused

/-- What the session puts out reaches those whom it is meant for. -/
def react (s : Scene) : Output → Scene
  | .event e => s.observe fun t => { t with events := t.events ++ [e] }
  | .datagram _ target data =>
    match Role.all.find? fun role => s.senderSocket role = target with
    | some role => s.observe fun t => { t with arrived := t.arrived ++ [(role, data)] }
    | none => s
  | .connect index _ =>
    match s.reach index with
    | .connected ip => s.changeProxy (Proxy.connected s.context.proxy s.moment index ip)
    | .refused => s.changeProxy (Proxy.refused s.context.proxy s.moment index)
    | .unanswered => s
  | .request index request =>
    match s.receivers[index]? with
    | some v => s.ask v request
    | none => s
  | .peerDatagram index _ target data =>
    match s.receivers[index]? with
    | none => s
    | some v =>
      match Role.all.find? fun role => v.socket? role = some target with
      | some role => s.observe fun t => { t with received := t.received ++ [(index, role, data)] }
      | none => s
  | .disconnect _ => s

/-- The answer that the connection waits for, if it is there. -/
def takeAnswer (s : Scene) : Option (Except Error Reply) × Scene :=
  match s.onSession Session.takeAnswer with
  | (some answer, s) => (answer, s)
  | (none, s) => (none, s)

/-- The connection waits for an answer. -/
def isWaiting (s : Scene) : Bool := (s.stream?.map fun c => c.waiting.isSome).getD false

/-- Everything happens that happens without time, in so many rounds. -/
def settleIn : Nat → Scene → Scene
  | 0, s => s.hear
  | n + 1, s =>
    match s.onSession Session.takeOutput with
    | (some (o :: out), s) => settleIn n ((o :: out).foldl react s)
    | (_, s) =>
      match if s.isWaiting then s.takeAnswer else (none, s) with
      | (some answer, s) => settleIn n (s.serve fun ctx v => v.resume ctx 0 answer)
      | (none, s) => s.hear

/-- Rounds that suffice: a few for the request at work, and for each that is still to be read. -/
def rounds (s : Scene) : Nat :=
  64 + (s.stream?.map fun c => c.unread.length + c.reader.buffer.length).getD 0

/-- Everything happens that happens without time. -/
def settle (s : Scene) : Scene := settleIn s.rounds s

/-- When a wait of the session is over at the latest. -/
def deadline? (s : Scene) : Option Nat :=
  s.session?.bind fun v => match v with
    | .player _ => none
    | .proxy p => p.deadline?

/-- It is this late now, and what is due happens. -/
def setTicks (ticks : Nat) (s : Scene) : Scene :=
  let s := { s with ticks }
  (s.changeSession (Session.tick s.context s.moment)).settle

/-- Time passes, with so many waits that may end on the way. -/
def advanceIn : Nat → Nat → Scene → Scene
  | 0, target, s => s.setTicks target
  | n + 1, target, s =>
    match s.deadline? with
    | some t => if t ≤ target then advanceIn n target (s.setTicks t) else s.setTicks target
    | none => s.setTicks target

/-- Time passes up to an instant. -/
def advanceTo (target : Nat) (s : Scene) : Scene := advanceIn s.rounds target s

/-- The answer to a request of which a number of waits may be part, and the scene when it is there. -/
def await : Nat → Scene → Option (Except Error Reply) × Scene
  | 0, s => s.takeAnswer
  | n + 1, s =>
    match s.takeAnswer with
    | (some answer, s) => (some answer, s)
    | (none, s) =>
      match s.deadline? with
      | some t => await n (s.advanceTo t)
      | none => (none, s)

/-- The server has stopped, after a number of waits that may be part of that. -/
def awaitStop : Nat → Scene → Scene
  | 0, s => s
  | n + 1, s =>
    match if s.server.stopping then s.deadline? else none with
    | some t => awaitStop n (s.advanceTo t)
    | none => s

end Scene
end Raop
