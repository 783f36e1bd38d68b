/-
# Servers

A server listens on a port and keeps the connections of its clients. It tells
when it starts and stops, and when a client comes and goes. One that is told to
stop does not run any more, but clients may still come until its listener is
closed; it has stopped when that is so and every connection has ended. What its
sessions share, a player's sink for one, is handed to each session with its
turn.

Key definitions: `ServerContext`, `Client`, `Server`, `Server.start`, `Server.accept`,
`Server.serve`, `Server.resume`, `Server.halt`, `Server.close`, `Server.stop`.
-/
import Raop.Connection

namespace Raop

/-- A handler whose sessions share nothing. -/
def Handler.alone {σ : Type} (h : Handler σ) : Handler (σ × Unit) where
  handle request s := ((h.handle request s.1).1, ((h.handle request s.1).2, ()))
  shutdown s := (h.shutdown s.1, ())

/-- Why a server does not start. -/
inductive ServerError where
  | alreadyRunning
  | bind
  deriving DecidableEq, Repr, Inhabited

/-- The name of a server, and how it deals with its clients. -/
structure ServerContext (ρ σ : Type) where
  name : String
  connection : ConnectionContext
  handler : Handler (σ × ρ)

/-- A client: the local address it came to, its connection and its session. -/
structure Client (σ : Type) where
  ip : IpAddress
  connection : Connection := {}
  session : σ

/-- A server: its port while it runs, its clients since it started, what its sessions share, and
what it has told. -/
structure Server (ρ σ : Type) where
  port : Option UInt16 := none
  /-- It has been told to stop, and has not yet stopped. -/
  stopping : Bool := false
  /-- Clients are accepted. -/
  listening : Bool := false
  clients : List (Client σ) := []
  shared : ρ
  events : List Event := []
  /-- What its connections did since it started, each by the position of its client. -/
  deeds : List (Nat × Deed) := []

namespace Server

variable {ρ σ : Type}

/-- The server is running. -/
def isRunning (v : Server ρ σ) : Bool := v.port.isSome

/-- An event is told. -/
def emit (v : Server ρ σ) (e : Event) : Server ρ σ := { v with events := v.events ++ [e] }

/-- The server starts, if it does not run yet and the system grants it a port. -/
def start (ctx : ServerContext ρ σ) (granted : Option UInt16) (v : Server ρ σ) :
    Except ServerError UInt16 × Server ρ σ :=
  if v.isRunning || v.stopping then (.error .alreadyRunning, v)
  else
    match granted with
    | none => (.error .bind, v)
    | some port =>
      (.ok port, { v with port := some port, listening := true, clients := [], deeds := [] }.emit
        (.started ctx.name))

/-- A client connects to a local address. -/
def accept (ip : IpAddress) (session : σ) (v : Server ρ σ) : Server ρ σ :=
  if v.listening then
    let client : Client σ := { ip, session }
    { v with clients := v.clients ++ [client] }.emit .clientConnected
  else v

/-- A turn of a client, with what is shared; the end of its connection is told. -/
def turn (f : IpAddress → Connection → σ × ρ → Connection × List Deed × (σ × ρ))
    (c : Client σ) (v : Server ρ σ) : Client σ × List Deed × Server ρ σ :=
  let (connection, done, session, shared) := f c.ip c.connection (c.session, v.shared)
  let v := { v with shared }
  let v := match c.connection.ending, connection.ending with
    | none, some e => v.emit e.event
    | _, _ => v
  ({ c with connection, session }, done, v)

/-- The server has stopped once it was told to, accepts no more clients and every connection has
ended. -/
def settle (ctx : ServerContext ρ σ) (v : Server ρ σ) : Server ρ σ :=
  if v.stopping && !v.listening && v.clients.all (·.connection.ending.isSome) then
    { v with stopping := false }.emit (.stopped ctx.name)
  else v

/-- A turn of the client at a position. -/
def turnAt (ctx : ServerContext ρ σ)
    (f : IpAddress → Connection → σ × ρ → Connection × List Deed × (σ × ρ))
    (i : Nat) (v : Server ρ σ) : List Response × Server ρ σ :=
  match v.clients[i]? with
  | none => ([], v)
  | some c =>
    let (c, done, v) := turn f c v
    (done.filterMap Deed.response?,
      { v with clients := v.clients.set i c, deeds := v.deeds ++ done.map (i, ·) }.settle ctx)

/-- Something happens to the connection of the client at a position, and it goes on. -/
def serve (ctx : ServerContext ρ σ) (i : Nat) (change : Connection → Connection) (v : Server ρ σ) :
    List Response × Server ρ σ :=
  v.turnAt ctx (fun ip c s => (change c).run ctx.connection ip ctx.handler s) i

/-- The answer that the client at a position waits for is there. -/
def resume (ctx : ServerContext ρ σ) (i : Nat) (result : Except Error Reply) (v : Server ρ σ) :
    List Response × Server ρ σ :=
  v.turnAt ctx (fun ip c s => c.resume ctx.connection ip ctx.handler result s) i

/-- The server is told to stop. -/
def halt (v : Server ρ σ) : Server ρ σ :=
  if v.isRunning then { v with port := none, stopping := true } else v

/-- The listener of a server that was told to stop is closed. -/
def close (ctx : ServerContext ρ σ) (v : Server ρ σ) : Server ρ σ :=
  if v.stopping then { v with listening := false }.settle ctx else v

/-- The server is told to stop, its listener is closed, and every connection is told to end; those that
wait for an answer end after it. -/
def stop (ctx : ServerContext ρ σ) (v : Server ρ σ) : Server ρ σ :=
  if v.isRunning then
    (List.range v.clients.length).foldl (fun v i => (v.serve ctx i Connection.stop).2)
      (v.halt.close ctx)
  else v

end Server
end Raop
