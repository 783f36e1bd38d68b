/-
# Channels and channel sets

A channel is a bound datagram socket with a role, connected to a remote
endpoint or not. A channel set holds at most one channel for each role: opening
a role closes its predecessor first, and then asks the system for a socket,
which may be refused. Channels that have left a set are closed; they are still
known, as someone may hold on to one.

What the system does is a parameter: a binder says for every attempt whether a
socket is bound, and to which local port.

Key definitions: `Channel`, `Channel.accepts`, `Channel.send`, `Binder`, `Binder.successive`,
`ChannelSet`, `ChannelSet.openRole`, `ChannelSet.closeRole`, `ChannelSet.closeAll`.
-/
import Raop.Error
import Raop.Net.Address
import Raop.Net.Role

namespace Raop

/-- A datagram socket of a role. -/
structure Channel where
  /-- Which attempt to open a channel it came from. -/
  id : Nat
  role : Role
  /-- The local port. -/
  port : UInt16
  remote : Option Endpoint := none
  /-- It can be sent on. -/
  isOpen : Bool := true
  /-- Datagrams are taken from it. -/
  receiving : Bool := true
  deriving DecidableEq, Repr, Inhabited

namespace Channel

/-- The most octets that are taken of a datagram. -/
def receiveLimit : Nat := 2048

/-- The most octets of a datagram that can be sent. -/
def sendLimit : Nat := 65507

/-- A datagram from an endpoint is taken: a connected channel takes those of its remote only. -/
def accepts (c : Channel) (source : Endpoint) : Bool :=
  c.receiving && (c.remote = none || c.remote = some source)

/-- What is taken of a datagram. -/
def taken (datagram : Bytes) : Bytes := datagram.take receiveLimit

/-- The channel cannot be sent on any more. -/
def close (c : Channel) : Channel := { c with isOpen := false }

/-- The channel and its socket are gone. -/
def shutdown (c : Channel) : Channel := { c with isOpen := false, receiving := false }

/-- Why a closed channel refuses. -/
def closedError (c : Channel) : Error := .network (c.role.name ++ " channel") "channel closed"

/-- The channel connected to a remote endpoint. -/
def connect (c : Channel) (remote : Endpoint) : Except Error Channel :=
  if c.isOpen then .ok { c with remote := some remote } else .error c.closedError

/-- Where a datagram goes that is sent on a channel. -/
def send (c : Channel) (datagram : Bytes) : Except Error Endpoint :=
  if !c.isOpen then .error c.closedError
  else match c.remote with
    | none => .error (.network (c.role.name ++ " channel") "no remote address")
    | some remote =>
      if sendLimit < datagram.length then
        .error (.network ("send on " ++ c.role.name ++ " channel") "message too long")
      else .ok remote

/-- Where a datagram goes that is sent to a target. -/
def sendTo (c : Channel) (datagram : Bytes) (target : Endpoint) : Except Error Endpoint :=
  if !c.isOpen then .error c.closedError
  else if sendLimit < datagram.length then
    .error (.network ("send on " ++ c.role.name ++ " channel to " ++ target.render)
      "message too long")
  else .ok target

end Channel

/-- What the system does with an attempt to open a channel: by the number of attempts before, the
role, the local endpoint asked for and the remote one. -/
abbrev Binder := Nat → Role → Endpoint → Option Endpoint → Except Error UInt16

/-- Ports are granted one after the other; a role may be refused, and so may whatever is to be
connected. -/
def Binder.successive (base : UInt16) (refused : Option Role) (connects : Bool) : Binder :=
  fun n role _ remote =>
    if refused = some role || (remote.isSome && !connects) then
      .error (.network ("open " ++ role.name ++ " channel") "refused")
    else .ok (base + .ofNat n)

/-- The channels of a session, at most one for each role. -/
structure ChannelSet where
  entries : List Channel := []
  /-- Channels that have left the set. -/
  released : List Channel := []
  /-- Attempts to open a channel. -/
  attempts : Nat := 0
  deriving DecidableEq, Repr, Inhabited

namespace ChannelSet

/-- The channel of a role. -/
def get? (s : ChannelSet) (role : Role) : Option Channel :=
  s.entries.find? fun c => c.role == role

/-- A list without the member at a position, which the last member takes. -/
def swapRemove {α : Type} (xs : List α) (i : Nat) : List α :=
  match xs.getLast? with
  | none => []
  | some last => if i + 1 = xs.length then xs.dropLast else xs.dropLast.set i last

/-- The set without the channel of a role. The last channel takes its place. -/
def closeRole (s : ChannelSet) (role : Role) : ChannelSet :=
  match s.entries.findIdx? (fun c => c.role == role), s.get? role with
  | some i, some c =>
    { s with entries := swapRemove s.entries i, released := c.shutdown :: s.released }
  | _, _ => s

/-- The set without channels. -/
def closeAll (s : ChannelSet) : ChannelSet :=
  { s with entries := [], released := s.entries.map Channel.shutdown ++ s.released }

/-- A channel of a role, instead of the one that was there; the old one is closed even if the new
one is refused. -/
def openRole (s : ChannelSet) (binder : Binder) (role : Role) (localEnd : Endpoint)
    (remote : Option Endpoint) : Except Error Channel × ChannelSet :=
  let s := s.closeRole role
  match binder s.attempts role localEnd remote with
  | .error e => (.error e, { s with attempts := s.attempts + 1 })
  | .ok port =>
    let c : Channel := { id := s.attempts, role, port, remote }
    (.ok c, { s with entries := s.entries ++ [c], attempts := s.attempts + 1 })

/-- The channel of an attempt, in the set or not. -/
def find? (s : ChannelSet) (id : Nat) : Option Channel :=
  (s.entries ++ s.released).find? fun c => c.id == id

/-- The channel of an attempt changed, in the set or not. -/
def modify (s : ChannelSet) (id : Nat) (f : Channel → Channel) : ChannelSet :=
  let change (c : Channel) := if c.id = id then f c else c
  { s with entries := s.entries.map change, released := s.released.map change }

end ChannelSet
end Raop
