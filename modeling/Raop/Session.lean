/-
# Sessions of either kind

What the session of a player and that of a proxy have in common: requests and
datagrams of a client, time, and what is put out.

Key definitions: `Session`, `SessionContext`, `Session.handler`.
-/
import Raop.Connection
import Raop.Player.Session
import Raop.Proxy.Session

namespace Raop

/-- What sessions are given by their servers. -/
structure SessionContext where
  player : PlayerContext
  proxy : ProxyContext

/-- The session of a player or of a proxy. -/
inductive Session where
  | player (p : Player)
  | proxy (p : Proxy)

namespace Session

/-- How far the session has come. -/
def state : Session → SessionState
  | player p => p.session.state
  | proxy p => p.state

/-- The channels to the client. -/
def channels : Session → ChannelSet
  | player p => p.session.channels
  | proxy p => p.channels

/-- What the session plays to: a proxy plays nothing. -/
def sink : Session → Sink
  | player p => p.sink
  | proxy _ => {}

/-- What was put out since it was last taken. -/
def takeOutput : Session → List Output × Session
  | player p => (p.output, player { p with output := [] })
  | proxy p => (p.output, proxy { p with output := [] })

/-- The answer that a proxy has come to. -/
def takeAnswer : Session → Option (Except Error Reply) × Session
  | player p => (none, player p)
  | proxy p => (p.answer, proxy { p with answer := none })

/-- A request: a player answers at once, a proxy when it can. -/
def handle (ctx : SessionContext) (now : Moment) (request : Request) :
    Session → Option (Except Error Reply) × Session
  | player p =>
    let (result, p) := p.handle ctx.player now request
    (some result, player p)
  | proxy p => takeAnswer (proxy (p.start ctx.proxy now request))

/-- A datagram of the client. -/
def datagram (now : Moment) (role : Role) (source : Endpoint) (data : Bytes) : Session → Session
  | player p => player (p.datagram now role source data)
  | proxy p => proxy (p.datagram now role source data)

/-- Time has passed. -/
def tick (ctx : SessionContext) (now : Moment) : Session → Session
  | player p => player (p.tick ctx.player now)
  | proxy p => proxy (p.tick ctx.proxy now)

/-- The stream ends. -/
def reset : Session → Session
  | player p => player p.reset
  | proxy p => proxy p.reset

/-- A session behind a connection. -/
def handler (ctx : SessionContext) (now : Moment) : Handler Session where
  handle := handle ctx now
  shutdown := reset

end Session
end Raop
