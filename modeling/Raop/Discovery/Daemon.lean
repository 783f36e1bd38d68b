/-
# The discovery daemon

A daemon is asked to announce a service, to withdraw it, to look for services,
to stop looking, and to shut down. Any of these may fail, and so may its start;
what it did is known by the calls that succeeded, in order.

Key definitions: `DaemonCall`, `Daemon`, `Daemon.call`, `announced`.
-/
import Raop.Discovery.Name

namespace Raop.Discovery

/-- What can be asked of a daemon. -/
inductive DaemonFunction where
  | new
  | register
  | unregister
  | browse
  | stopBrowse
  | shutdown
  deriving DecidableEq, Repr, Inhabited

/-- Something that a daemon did. -/
inductive DaemonCall where
  /-- The service of a full name is announced on a port. -/
  | register (full : String) (port : UInt16)
  | unregister (full : String)
  | browse (type : String)
  | stopBrowse (type : String)
  | shutdown
  deriving DecidableEq, Repr, Inhabited

/-- A daemon, by the functions that fail and why. -/
structure Daemon where
  fault? : DaemonFunction → Option String := fun _ => none

namespace DaemonCall

/-- The function that is called. -/
def function : DaemonCall → DaemonFunction
  | register _ _ => .register
  | unregister _ => .unregister
  | browse _ => .browse
  | stopBrowse _ => .stopBrowse
  | shutdown => .shutdown

end DaemonCall

namespace Daemon

/-- A function fails or not. -/
def attempt (d : Daemon) (f : DaemonFunction) : Except AdvertiserError Unit :=
  match d.fault? f with
  | some detail => .error (.mdns detail)
  | none => .ok ()

/-- A call, with the list of calls that were made with it: itself, or none if it fails. -/
def call (d : Daemon) (c : DaemonCall) : Except AdvertiserError Unit × List DaemonCall :=
  match d.attempt c.function with
  | .error e => (.error e, [])
  | .ok () => (.ok (), [c])

/-- Looking for receivers begins. -/
def browse (d : Daemon) : Except AdvertiserError (List DaemonCall) :=
  match d.attempt .new with
  | .error e => .error e
  | .ok () =>
    match d.call (.browse serviceType) with
    | (.error e, _) => .error e
    | (.ok (), calls) => .ok calls

/-- Looking for receivers ends. -/
def endBrowse (d : Daemon) : List DaemonCall :=
  (d.call (.stopBrowse serviceType)).2 ++ (d.call .shutdown).2

end Daemon

/-- The services announced after some calls, each with its port. -/
def announced (calls : List DaemonCall) : List (String × UInt16) :=
  calls.foldl (fun services c => match c with
    | .register full port => services ++ [(full, port)]
    | .unregister full => services.filter fun s => s.1 ≠ full
    | _ => services) []

end Raop.Discovery
