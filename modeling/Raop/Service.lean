/-
# The service

A service runs a player, a proxy, or both, and announces what runs if it is
told to. It starts the player first; where anything fails, all that was started
is stopped. It stops in the order announcements, proxy, player.

What was done is known by the actions, from which the servers that run and the
services that are announced follow.

Key definitions: `ServerKind`, `Host`, `Listener`, `ServiceConfig.listener?`, `ServiceAction`,
`Service`, `Service.launch`, `Service.start`, `Service.stop`.
-/
import Raop.Config.Service
import Raop.Discovery.Advertiser
import Raop.Server

namespace Raop

/-- The two kinds of servers. -/
inductive ServerKind where
  | player
  | proxy
  deriving DecidableEq, Repr, Inhabited

/-- What is the same for both servers. -/
instance {α : Type} : Coe α (ServerKind → α) := ⟨fun a _ => a⟩

/-- What the service finds when it deals with a server of a kind: files, a port for the listener, and
the daemon that is to announce it; and the hardware address. -/
structure Host where
  /-- The text of a file that can be read. -/
  files : ServerKind → String → Option String
  /-- The port that a listener gets, if it gets one. -/
  bind : ServerKind → Endpoint → Option UInt16
  /-- Each announcement has a daemon of its own. -/
  daemon : ServerKind → Discovery.Daemon := fun _ => {}
  mac : MacAddress

/-- What a server of either kind is launched with. -/
structure Listener where
  name : String
  keyPath : Option String
  bind : Endpoint
  deriving DecidableEq, Repr, Inhabited

/-- The server of a kind that a configuration names. -/
def ServiceConfig.listener? (config : ServiceConfig) : ServerKind → Option Listener
  | .player => config.player.map fun c => ⟨c.name, c.privateKeyPath, ⟨c.bindAddress, c.port⟩⟩
  | .proxy => config.proxy.map fun c => ⟨c.name, c.privateKeyPath, ⟨c.bindAddress, c.port⟩⟩

/-- Why the service does not start. -/
inductive ServiceError where
  | crypto (cause : CryptoError)
  | server (cause : ServerError)
  | advertiser (cause : Discovery.AdvertiserError)
  deriving DecidableEq, Repr, Inhabited

/-- Something that a service did. -/
inductive ServiceAction where
  | started (kind : ServerKind) (port : UInt16)
  | stopped (kind : ServerKind)
  /-- The daemon that announces a server of a kind was called. -/
  | daemon (kind : ServerKind) (call : Discovery.DaemonCall)
  deriving DecidableEq, Repr, Inhabited

namespace ServiceAction

/-- The servers that run after some actions, each with its port. -/
def running (actions : List ServiceAction) : List (ServerKind × UInt16) :=
  actions.foldl (fun servers a => match a with
    | started kind port => servers ++ [(kind, port)]
    | stopped kind => servers.filter fun s => s.1 ≠ kind
    | daemon _ _ => servers) []

/-- The call of a daemon, with the kind of the server that it announces. -/
def call? : ServiceAction → Option (ServerKind × Discovery.DaemonCall)
  | daemon kind call => some (kind, call)
  | _ => none

end ServiceAction

/-- A service: the ports of its servers while they run, its announcements, and all that it did. -/
structure Service where
  mac : MacAddress
  player : Option UInt16 := none
  proxy : Option UInt16 := none
  /-- Each with the kind of the server that it announces. -/
  advertisers : List (ServerKind × Discovery.Advertiser) := []
  actions : List ServiceAction := []
  deriving DecidableEq, Repr, Inhabited

namespace Service

/-- The calls of daemons that the service made. -/
def calls (s : Service) : List Discovery.DaemonCall :=
  (s.actions.filterMap ServiceAction.call?).map (·.2)

/-- The port of a server. -/
def port? (s : Service) : ServerKind → Option UInt16
  | .player => s.player
  | .proxy => s.proxy

/-- The names under which servers are announced. -/
def advertised (s : Service) : List String := s.advertisers.map (·.2.serviceName)

/-- More was done. -/
def did (s : Service) (actions : List ServiceAction) : Service :=
  { s with actions := s.actions ++ actions }

/-- The service with the port of a server. -/
def withPort (s : Service) (kind : ServerKind) (port : Option UInt16) : Service :=
  match kind with
  | .player => { s with player := port }
  | .proxy => { s with proxy := port }

/-- A server that runs is announced, if servers are to be announced. -/
def advertise (host : Host) (wanted : Bool) (kind : ServerKind) (name : String) (port : UInt16)
    (s : Service) : Except ServiceError Unit × Service :=
  if wanted then
    match Discovery.Advertiser.launch (host.daemon kind) name port s.mac with
    | (.error e, calls) => (.error (.advertiser e), s.did (calls.map (.daemon kind)))
    | (.ok a, calls) =>
      (.ok (), { s with advertisers := s.advertisers ++ [(kind, a)] }.did (calls.map (.daemon kind)))
  else (.ok (), s)

/-- A server is started: its key is loaded, its port bound, and it is announced. -/
def launch (host : Host) (wanted : Bool) (kind : ServerKind) (l : Listener) (s : Service) :
    Except ServiceError Unit × Service :=
  match loadKey (host.files kind) l.keyPath with
  | .error e => (.error (.crypto e), s)
  | .ok _ =>
    match host.bind kind l.bind with
    | none => (.error (.server .bind), s)
    | some port =>
      ((s.withPort kind (some port)).did [.started kind port]).advertise host wanted kind l.name port

/-- The server of a kind is started if the configuration names it. -/
def launchNamed (host : Host) (config : ServiceConfig) (kind : ServerKind) (s : Service) :
    Except ServiceError Unit × Service :=
  match config.listener? kind with
  | none => (.ok (), s)
  | some l => s.launch host config.advertise kind l

/-- The servers that the configuration names are started, the player first, up to the first that fails. -/
def launchAll (host : Host) (config : ServiceConfig) (s : Service) : Except ServiceError Unit × Service :=
  match s.launchNamed host config .player with
  | (.ok (), s) => s.launchNamed host config .proxy
  | (.error e, s) => (.error e, s)

/-- A server is stopped, if it runs. -/
def stopServer (kind : ServerKind) (s : Service) : Service :=
  match s.port? kind with
  | none => s
  | some _ => (s.withPort kind none).did [.stopped kind]

/-- What is done when an announcement is given up. -/
def giveUp (host : Host) : ServerKind × Discovery.Advertiser → List ServiceAction
  | (kind, a) => (a.giveUp (host.daemon kind)).map (.daemon kind)

/-- The announcements are withdrawn, in order. -/
def stopAdvertisers (host : Host) (s : Service) : Service :=
  { s with advertisers := [] }.did (s.advertisers.flatMap (giveUp host))

/-- Everything is stopped. -/
def stop (host : Host) (s : Service) : Service :=
  ((s.stopAdvertisers host).stopServer .proxy).stopServer .player

/-- The service starts; where that fails everything is stopped. -/
def start (host : Host) (config : ServiceConfig) : Except ServiceError Unit × Service :=
  let s : Service := { mac := config.macAddress.getD host.mac }
  match s.launchAll host config with
  | (.ok (), s) => (.ok (), s)
  | (.error e, s) => (.error e, s.stop host)

end Service
end Raop
