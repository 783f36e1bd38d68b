/-
# What a session puts out

A session tells events and sends datagrams to its client. A proxy also deals
with its peers: it connects to them, writes requests, sends datagrams on their
channels and closes their connections.

Key definitions: `Output`.
-/
import Raop.Event
import Raop.Message.Request
import Raop.Net.Address
import Raop.Net.Role
import Raop.Proxy.PeerAddress

namespace Raop

/-- What a step sends or tells. -/
inductive Output where
  | event (e : Event)
  /-- A datagram that leaves a channel of a role toward the client. -/
  | datagram (role : Role) (target : Endpoint) (data : Bytes)
  /-- A connection to the peer at a position is attempted. -/
  | connect (peer : Nat) (address : PeerAddress)
  /-- A request is written to a peer. -/
  | request (peer : Nat) (request : Request)
  /-- A datagram that leaves the channel of a role that faces a peer. -/
  | peerDatagram (peer : Nat) (role : Role) (target : Endpoint) (data : Bytes)
  /-- The connection to a peer is closed. -/
  | disconnect (peer : Nat)

end Raop
