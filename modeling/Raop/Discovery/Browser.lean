/-
# Finding receivers

A resolved service is a peer unless one of its addresses is an own one; of
several addresses the least one counts, version 4 before version 6. A scan
collects the peers found until it ends, one for each address and port; peers
that are lost meanwhile stay.

Key definitions: `DiscoveredPeer.ofService?`, `PeerEvent`, `PeerEvent.ofDaemon?`,
`scan`.
-/
import Raop.Discovery.Name
import Raop.Proxy.PeerAddress

namespace Raop.Discovery

/-- A receiver that was found. -/
structure DiscoveredPeer where
  name : String
  address : IpAddress
  port : UInt16
  deriving DecidableEq, Repr, Inhabited

/-- The least of some addresses. -/
def least : List IpAddress → Option IpAddress
  | [] => none
  | ip :: ips =>
    match least ips with
    | none => some ip
    | some other => some (if other.before ip then other else ip)

namespace DiscoveredPeer

/-- The peer of a service with a full name, addresses and a port. -/
def ofService? (own : List IpAddress) (full : String) (addresses : List IpAddress)
    (port : UInt16) : Option DiscoveredPeer :=
  if addresses.any own.contains then none
  else (least addresses).map fun address =>
    let inst := instanceOf full
    { name := ((parseInstance? inst).map (·.2)).getD inst, address, port }

/-- The address under which a proxy reaches a peer. -/
def toPeerAddress (p : DiscoveredPeer) : PeerAddress :=
  { host := p.address.render, port := p.port }

end DiscoveredPeer

/-- What the daemon reports on services. -/
inductive DaemonEvent where
  | resolved (full : String) (addresses : List IpAddress) (port : UInt16)
  | removed (full : String)
  /-- The daemon is gone; nothing comes after that. -/
  | ended
  /-- Anything else. -/
  | other
  deriving DecidableEq, Repr, Inhabited

/-- A peer appears or goes. -/
inductive PeerEvent where
  | found (peer : DiscoveredPeer)
  | lost (full : String)
  deriving DecidableEq, Repr, Inhabited

/-- What an event of the daemon means for peers. -/
def PeerEvent.ofDaemon? (own : List IpAddress) : DaemonEvent → Option PeerEvent
  | .resolved full addresses port => (DiscoveredPeer.ofService? own full addresses port).map .found
  | .removed full => some (.lost full)
  | .ended | .other => none

/-- The peers found, with one more: instead of one of the same address and port. -/
def remember (peers : List DiscoveredPeer) (p : DiscoveredPeer) : List DiscoveredPeer :=
  peers.filter (fun q => ¬ (q.address = p.address ∧ q.port = p.port)) ++ [p]

/-- The peers after an event; one that is lost stays. -/
def observe (peers : List DiscoveredPeer) : Option PeerEvent → List DiscoveredPeer
  | some (.found p) => remember peers p
  | _ => peers

/-- A scan that goes on with these peers: the peers found at its end, and when that is. It ends at the
limit, or when the daemon is gone. -/
def scanOnto (own : List IpAddress) (limit : Nat) (peers : List DiscoveredPeer) :
    List (Nat × DaemonEvent) → List DiscoveredPeer × Nat
  | [] => (peers, limit)
  | (time, e) :: rest =>
    if limit < time then (peers, limit)
    else if e = .ended then (peers, time)
    else scanOnto own limit (observe peers (PeerEvent.ofDaemon? own e)) rest

/-- The peers found by a scan of timed events in order, and when it ended. -/
def scan (own : List IpAddress) (limit : Nat) (events : List (Nat × DaemonEvent)) :
    List DiscoveredPeer × Nat := scanOnto own limit [] events

end Raop.Discovery
