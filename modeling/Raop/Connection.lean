/-
# Connections

A connection reads requests and writes one response for each, in order. The
session behind it is given every request but OPTIONS, and is told once when the
connection ends: with the end of the stream, with a malformed request, after
TEARDOWN, when its server stops, or when a response cannot be written. A
session may leave an answer open; the connection then reads on when the answer
is there. What a connection does is told in the order in which it does it.

Key definitions: `Handler`, `ConnectionContext`, `Ending`, `Deed`, `Connection`,
`Connection.drain`, `Connection.run`, `Connection.resume`, `Connection.serve`.
-/
import Raop.Challenge
import Raop.Error
import Raop.Event
import Raop.Message.Reader

namespace Raop

/-- How requests are handled, where no answer means that it comes later, and what is done when the
client is gone. -/
structure Handler (σ : Type) where
  handle : Request → σ → Option (Except Error Reply) × σ
  shutdown : σ → σ

/-- A handler that leaves no answer open. -/
def Handler.prompt {σ : Type} (handle : Request → σ → Except Error Reply × σ) (shutdown : σ → σ) :
    Handler σ where
  handle request s := (some (handle request s).1, (handle request s).2)
  shutdown := shutdown

/-- What all connections of a server have in common. -/
structure ConnectionContext where
  privateKey : Option PrivateKey := none
  mac : MacAddress
  server : String := "AirTunes/105.1"
  deriving DecidableEq, Repr, Inhabited

/-- Why a connection ended. -/
inductive Ending where
  | closedByClient
  | serverStopped
  | malformed
  | teardown
  | failed (cause : Error)
  deriving DecidableEq, Repr, Inhabited

namespace Ending

/-- The reason that is told. -/
def reason : Ending → String
  | closedByClient => "connection closed by client"
  | serverStopped => "server stopped"
  | malformed => "malformed request"
  | teardown => "teardown"
  | failed cause => cause.message

/-- What is told of a connection that ended. -/
def event (e : Ending) : Event := .clientDisconnected e.reason

end Ending

/-- What a connection does. -/
inductive Deed where
  /-- The handler is given a request. -/
  | handle (request : Request)
  /-- A response is written. -/
  | write (response : Response)
  /-- The handler is told that the client is gone. -/
  | shutdown
  deriving DecidableEq, Repr, Inhabited

/-- The response that is written. -/
def Deed.response? : Deed → Option Response
  | write response => some response
  | _ => none

/-- A connection: what was read of it, what the client did to it, and how it ended if it did. -/
structure Connection where
  reader : RequestReader := {}
  /-- Octets that arrived and were not read yet. -/
  unread : Bytes := []
  /-- The client sends nothing more. -/
  closed : Bool := false
  /-- Nothing can be written any more. -/
  broken : Bool := false
  /-- The server stops. -/
  stopping : Bool := false
  /-- The request whose answer is awaited. -/
  waiting : Option Request := none
  ending : Option Ending := none
  deriving DecidableEq, Repr, Inhabited

namespace Connection

/-- The most octets that are read at once. -/
def readSize : Nat := 4096

/-- The state of the jack in every response. -/
def jackStatus : String := "connected; type=analog"

/-- Octets arrive. -/
def feed (c : Connection) (data : Bytes) : Connection := { c with unread := c.unread ++ data }

/-- The client sends nothing more. -/
def close (c : Connection) : Connection := { c with closed := true }

/-- The client is gone. -/
def vanish (c : Connection) : Connection := { c with closed := true, broken := true }

/-- The server stops. -/
def stop (c : Connection) : Connection := { c with stopping := true }

/-- The fields of every response. -/
def decorate (ctx : ConnectionContext) (r : Reply) : Reply :=
  (r.withHeader "Server" ctx.server).withHeader "Audio-Jack-Status" jackStatus

/-- The answer to the challenge of a request, if it has one that can be answered. -/
def challengeAnswer? (ctx : ConnectionContext) (ip : IpAddress) (request : Request) :
    Option String := do
  let challenge ← request.headers.get? "Apple-Challenge"
  let key ← ctx.privateKey
  match Challenge.respond key challenge ip.canonical ctx.mac.toList with
  | .ok answer => some answer
  | .error _ => none

/-- The reply with a header field, if there is a value for it. -/
def withOptional (r : Reply) (name : String) (value : Option String) : Reply :=
  match value with
  | some v => r.withHeader name v
  | none => r

/-- The response to a request, from what the handler said. -/
def respond (ctx : ConnectionContext) (ip : IpAddress) (request : Request)
    (result : Except Error Reply) : Response :=
  let reply := match result with
    | .ok r => r
    | .error e => { status := e.status }
  let reply := decorate ctx reply
  let reply := withOptional reply "CSeq" (request.headers.get? "CSeq")
  (withOptional reply "Apple-Response" (challengeAnswer? ctx ip request)).toResponse

/-- The response to a malformed request. -/
def rejection (ctx : ConnectionContext) : Response :=
  (decorate ctx { status := .badRequest }).toResponse

/-- What is written of a response, and how the connection ends with it if it does. -/
def write (c : Connection) (response : Response) (ending : Option Ending) :
    List Deed × Option Ending :=
  if c.broken then ([], some (.failed (.network "write RTSP response" "broken pipe")))
  else ([.write response], ending)

/-- A response ends the connection if its request is TEARDOWN. -/
def endingOf (request : Request) : Option Ending :=
  if request.method = .teardown then some .teardown else none

variable {σ : Type}

/-- What is said to a request: OPTIONS is answered here, anything else by the handler. -/
def answer (h : Handler σ) (request : Request) (s : σ) : Option (Except Error Reply) × σ :=
  if request.method = .options then
    (some (.ok (({} : Reply).withHeader "Public" Method.publicList)), s)
  else h.handle request s

/-- The handler is given a request, unless it is answered here. -/
def handing (request : Request) : List Deed :=
  if request.method = .options then [] else [.handle request]

/-- The requests read answered one by one, until one is incomplete, an answer is left open, or the
connection ends. -/
def drain (ctx : ConnectionContext) (ip : IpAddress) (h : Handler σ) (c : Connection) (s : σ) :
    Connection × List Deed × σ :=
  match _step : c.reader.next with
  | (.ok none, _) => (c, [], s)
  | (.error _, _) =>
    let (written, ending) := c.write (rejection ctx) (some .malformed)
    ({ c with ending }, written, s)
  | (.ok (some request), reader) =>
    match answer h request s with
    | (none, s) => ({ c with reader, waiting := some request }, handing request, s)
    | (some result, s) =>
      let (written, ending) := c.write (respond ctx ip request result) (endingOf request)
      if ending.isSome then ({ c with reader, ending }, handing request ++ written, s)
      else
        let (c, more, s) := drain ctx ip h { c with reader } s
        (c, handing request ++ written ++ more, s)
  termination_by c.reader.buffer.length
  decreasing_by exact RequestReader.next_shorter ‹_›

/-- A connection that has ended tells its handler so, after all that it has done. -/
def conclude (h : Handler σ) (c : Connection) (done : List Deed) (s : σ) :
    Connection × List Deed × σ :=
  (c, done ++ [.shutdown], h.shutdown s)

/-- What arrived is read and answered, piece by piece. -/
def pump (ctx : ConnectionContext) (ip : IpAddress) (h : Handler σ) (unread : Bytes)
    (c : Connection) (s : σ) : Connection × List Deed × σ :=
  let (c, done, s) := drain ctx ip h c s
  if c.ending.isSome then conclude h { c with unread } done s
  else if c.waiting.isSome then ({ c with unread }, done, s)
  else if c.stopping then conclude h { c with unread, ending := some .serverStopped } done s
  else
    match _rest : unread with
    | [] =>
      if c.closed then conclude h { c with unread, ending := some .closedByClient } done s
      else ({ c with unread }, done, s)
    | b :: bs =>
      let piece := (b :: bs).take readSize
      let (c, more, s) :=
        pump ctx ip h ((b :: bs).drop readSize) { c with reader := c.reader.feed piece } s
      (c, done ++ more, s)
  termination_by unread.length
  decreasing_by simp only [List.length_drop, List.length_cons, readSize]; omega

/-- The connection goes on as far as it can: not while an answer is awaited, nor after its end. -/
def run (ctx : ConnectionContext) (ip : IpAddress) (h : Handler σ) (c : Connection) (s : σ) :
    Connection × List Deed × σ :=
  if c.ending.isSome || c.waiting.isSome then (c, [], s) else pump ctx ip h c.unread c s

/-- The awaited answer is there. -/
def resume (ctx : ConnectionContext) (ip : IpAddress) (h : Handler σ) (result : Except Error Reply)
    (c : Connection) (s : σ) : Connection × List Deed × σ :=
  match c.waiting with
  | none => (c, [], s)
  | some request =>
    let (written, ending) := c.write (respond ctx ip request result) (endingOf request)
    let c := { c with waiting := none, ending }
    if ending.isSome then conclude h c written s
    else
      let (c, more, s) := run ctx ip h c s
      (c, written ++ more, s)

/-- A whole connection: octets in pieces, then the end of the stream. -/
def serve (ctx : ConnectionContext) (ip : IpAddress) (h : Handler σ) :
    List Bytes → Connection → σ → Connection × List Deed × σ
  | [], c, s => run ctx ip h c.close s
  | data :: rest, c, s =>
    let (c, done, s) := run ctx ip h (c.feed data) s
    let (c, more, s) := serve ctx ip h rest c s
    (c, done ++ more, s)

end Connection
end Raop
