/-
# Receivers that answer by rule

What stands at the other end of a peer's connection: whether it is reached, the
sockets on which it takes datagrams, and what it does with each request. Unless
it has a rule of its own for a method it accepts, under the request's own
sequence number, and names its sockets to a SETUP.

Key definitions: `Reach`, `HeaderRule`, `Conduct`, `Receiver`, `Receiver.conduct`,
`Receiver.respond`.
-/
import Raop.Message.Request
import Raop.Message.Response
import Raop.Net.Address
import Raop.Net.Role

namespace Raop

/-- What becomes of an attempt to connect. -/
inductive Reach where
  | connected (ip : IpAddress)
  | refused
  | unanswered
  deriving DecidableEq, Repr, Inhabited

/-- What becomes of an attempt to connect to a host, where this machine is the only one there is:
its own addresses are found, others never answer, and no other name is known. -/
def Reach.ofHost (host : String) : Reach :=
  if host = "localhost" then .connected .loopback4
  else match IpAddress.parse? host with
    | some ip => if ip.isLoopback then .connected ip else .unanswered
    | none => .refused

/-- What a response has of a header field. -/
inductive HeaderRule where
  | usual
  | absent
  | given (value : String)
  deriving DecidableEq, Repr, Inhabited

/-- The value of a field under a rule. -/
def HeaderRule.apply : HeaderRule → Option String → Option String
  | usual, value => value
  | absent, _ => none
  | given value, _ => some value

/-- What is done with a request. -/
inductive Conduct where
  | silent
  /-- The connection is closed. -/
  | leave
  /-- These octets are the answer. -/
  | raw (data : Bytes)
  | answer (status : Status) (cseq transport : HeaderRule)
  deriving DecidableEq, Repr, Inhabited

/-- A receiver: its position among the peers, and its rules by the names of methods. -/
structure Receiver where
  index : Nat
  reach : Reach
  rules : List (String × Conduct) := []
  deriving DecidableEq, Repr, Inhabited

namespace Receiver

/-- The port of the socket of a role. -/
def port (index : Nat) (role : Role) : UInt16 := .ofNat (42000 + 10 * index + role.ordinal)

/-- The socket of a role, if the receiver is reached at all. -/
def socket? (v : Receiver) (role : Role) : Option Endpoint :=
  match v.reach with
  | .connected ip => some ⟨ip, port v.index role⟩
  | _ => none

/-- What is done with a request. -/
def conduct (v : Receiver) (request : Request) : Conduct :=
  (v.rules.lookup request.method.token).getD (.answer .ok .usual .usual)

/-- The transport that names the receiver's sockets. -/
def transport (v : Receiver) : String :=
  "RTP/AVP/UDP;unicast;mode=record;server_port=" ++ Text.natText (port v.index .audio).toNat ++
    ";control_port=" ++ Text.natText (port v.index .control).toNat ++
    ";timing_port=" ++ Text.natText (port v.index .timing).toNat

/-- The reply with a header field, if there is a value for it. -/
def withField (name : String) (value : Option String) (r : Reply) : Reply :=
  match value with
  | some v => r.withHeader name v
  | none => r

/-- The response to a request under rules for two of its fields. -/
def respond (v : Receiver) (request : Request) (status : Status) (cseq transport : HeaderRule) :
    Response :=
  let isSetup := request.method = .setup
  let r : Reply := { status }
  let r := withField "CSeq" (cseq.apply (request.headers.get? "CSeq")) r
  let r := withField "Transport" (transport.apply (if isSetup then some v.transport else none)) r
  (withField "Session" (if isSetup then some "1" else none) r).toResponse

end Receiver
end Raop
