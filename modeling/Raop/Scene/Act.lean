/-
# What happens in a scene

The sender asks and sends, receivers write, send and leave, time passes, the
server is stopped. Each of these is an act, a scene is played by acts one after
the other.

Key definitions: `Act`, `Scene.perform`, `Scene.play`.
-/
import Raop.Scene
import Raop.Scene.Outcome

namespace Raop

/-- Something that happens. -/
inductive Act where
  /-- The sender makes a request without a connection. -/
  | request (request : Request)
  /-- The sender sends a datagram from its socket of a role to the channel of that role. -/
  | datagram (role : Role) (data : Bytes)
  /-- A receiver sends a datagram to the channel that faces it. -/
  | receiverDatagram (index : Nat) (role : Role) (data : Bytes)
  /-- A receiver writes on its connection. -/
  | receiverWrites (index : Nat) (data : Bytes)
  /-- The connection to a receiver ends or fails. -/
  | receiverLeaves (index : Nat)
  /-- A receiver reads nothing more. -/
  | receiverDeaf (index : Nat)
  | advance (nanos : Nat)
  /-- The proxy waits for its peers up to a limit. -/
  | barrier (cseq : UInt32) (nanos : Nat)
  | reset
  /-- Octets arrive on the connection. -/
  | feed (data : Bytes)
  /-- Octets arrive, and the sender is gone. -/
  | feedAndVanish (data : Bytes)
  /-- The sender writes nothing more. -/
  | close
  | stop
  /-- Accepting a client fails, which the server survives. -/
  | acceptFault

namespace Scene

/-- The session has a channel of a role, or on a connection named one. -/
def hasChannel (s : Scene) (role : Role) : Bool :=
  if s.direct then (s.session?.map fun v => (v.channels.get? role).isSome).getD false
  else s.named.contains role

/-- The proxy, if the session is one. -/
def proxy? (s : Scene) : Option Proxy :=
  s.session?.bind fun v => match v with
    | .proxy p => some p
    | .player _ => none

/-- The peer of an index. -/
def peer? (s : Scene) (index : Nat) : Option Peer := s.proxy?.bind fun p => p.relay.peer? index

/-- Something happens to the peer of an index, if there is one. -/
def onPeer (index : Nat) (f : Proxy → Proxy) (s : Scene) : Outcome × Scene :=
  match s.peer? index with
  | none => (.noConnection, s)
  | some _ => (.done, (s.changeProxy f).settle)

/-- Peers that are not usable are dropped. -/
def prune (s : Scene) : Scene := s.changeProxy fun p => p.withRelay p.relay.prune

/-- The proxy waits for its peers; as nothing else happens it waits in vain or not at all. -/
def waitForPeers (cseq : UInt32) (nanos : Nat) (s : Scene) : Outcome × Scene :=
  let s := s.prune
  let cells := (s.proxy?.map fun p => p.relay.peers.map Peer.cell).getD []
  let barrier := Barrier.start cseq cells
  if barrier.reached then (.pending 0, s)
  else (.pending barrier.pending, s.advanceTo (s.ticks + nanos))

/-- Octets arrive on the connection, unless the sender has closed it. -/
def feed (data : Bytes) (f : Connection → Connection) (s : Scene) : Scene :=
  (s.onStream fun c => if c.closed then c else f (c.feed data)).settle

/-- The server stops, or without one the connection is told to. -/
def halt (s : Scene) : Scene :=
  if s.server.isRunning then
    let s := (s.serve fun ctx v => ([], v.stop ctx)).settle
    awaitStop s.rounds s
  else (s.onStream Connection.stop).settle

/-- An act is performed. -/
def perform (s : Scene) : Act → Outcome × Scene
  | .request request =>
    match s.onSession (Session.handle s.context s.moment request) with
    | (some (some answer), s) => (.answer (some answer), s.settle)
    | (_, s) =>
      let (answer, s) := await s.rounds s.settle
      (.answer answer, s)
  | .datagram role data =>
    if !s.hasChannel role then (.noChannel, s)
    else if !s.routed then (.noRoute, s)
    else (.done,
      (s.changeSession (Session.datagram s.moment role (s.senderSocket role) data)).settle)
  | .receiverDatagram index role data =>
    let source := (s.receivers[index]?).bind fun v => v.socket? role
    match (s.peer? index).bind fun p => p.channel? role, source with
    | some _, some source =>
      (.done, (s.changeProxy (Proxy.peerDatagram s.moment index role source data)).settle)
    | _, _ => (.noChannel, s)
  | .receiverWrites index data => s.onPeer index (Proxy.peerData s.context.proxy index data)
  | .receiverLeaves index => s.onPeer index (Proxy.peerLost index)
  | .receiverDeaf index => s.onPeer index (Proxy.peerBroken index)
  | .advance nanos => (.done, s.advanceTo (s.ticks + nanos))
  | .barrier cseq nanos => s.waitForPeers cseq nanos
  | .reset => (.done, (s.changeSession Session.reset).settle)
  | .feed data => (.done, s.feed data id)
  | .feedAndVanish data => (.done, s.feed data Connection.vanish)
  | .close => (.done, (s.onStream Connection.close).settle)
  | .stop => (.done, s.halt)
  | .acceptFault => (.flag s.server.isRunning, s)

/-- How long an act takes: three milliseconds. -/
def pace : Nat := 3000000

/-- The scene as it is looked at anew. What the server has told meanwhile is still to be seen. -/
def look (s : Scene) : Scene := { s with trace := {} }.hear

/-- An act is performed in a scene that was looked at before, and takes its time. -/
def play (s : Scene) (a : Act) : Outcome × Scene :=
  let (outcome, s) := s.look.perform a
  (outcome, s.advanceTo (s.ticks + pace))

end Scene
end Raop
