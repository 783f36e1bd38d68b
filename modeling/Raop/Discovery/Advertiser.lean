/-
# Announcing a receiver

An advertiser announces one service under one name and withdraws it. One that
is given up withdraws its service if it is announced, and shuts its daemon down.

Key definitions: `Advertiser`, `Advertiser.register`, `Advertiser.unregister`,
`Advertiser.giveUp`, `Advertiser.launch`.
-/
import Raop.Discovery.Daemon

namespace Raop.Discovery

/-- A service to announce: its name, its port, its hardware address, and its full name while it is
announced. -/
structure Advertiser where
  name : String
  port : UInt16
  mac : MacAddress
  registered : Option String := none
  deriving DecidableEq, Repr, Inhabited

namespace Advertiser

/-- The name under which the service is announced. -/
def serviceName (a : Advertiser) : String := instanceName a.mac a.name

/-- An advertiser, if its daemon starts. -/
def create (d : Daemon) (name : String) (port : UInt16) (mac : MacAddress) :
    Except AdvertiserError Advertiser :=
  (d.attempt .new).map fun () => { name, port, mac }

/-- The service is announced, unless it is already. -/
def register (d : Daemon) (a : Advertiser) :
    Except AdvertiserError Unit × Advertiser × List DaemonCall :=
  match a.registered with
  | some _ => (.error .alreadyRegistered, a, [])
  | none =>
    let full := fullName a.serviceName
    match d.call (.register full a.port) with
    | (.error e, calls) => (.error e, a, calls)
    | (.ok (), calls) => (.ok (), { a with registered := some full }, calls)

/-- The service is withdrawn. It counts as withdrawn even if the daemon fails. -/
def unregister (d : Daemon) (a : Advertiser) :
    Except AdvertiserError Unit × Advertiser × List DaemonCall :=
  match a.registered with
  | none => (.error .notRegistered, a, [])
  | some full =>
    let (result, calls) := d.call (.unregister full)
    (result, { a with registered := none }, calls)

/-- The advertiser is given up. -/
def giveUp (d : Daemon) (a : Advertiser) : List DaemonCall :=
  (a.unregister d).2.2 ++ (d.call .shutdown).2

/-- An advertiser whose service is announced from the start; where that fails it is given up. -/
def launch (d : Daemon) (name : String) (port : UInt16) (mac : MacAddress) :
    Except AdvertiserError Advertiser × List DaemonCall :=
  match create d name port mac with
  | .error e => (.error e, [])
  | .ok a =>
    match a.register d with
    | (.error e, a, calls) => (.error e, calls ++ a.giveUp d)
    | (.ok (), a, calls) => (.ok a, calls)

end Advertiser
end Raop.Discovery
