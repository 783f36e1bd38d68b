/-
# Traces without chance

Which local ports the system grants and what time of day it is differs from run
to run. A redacted trace has a star for every local port, a name in braces for a
port of the sender, and zeros for times, so that two runs of the same acts have
the same one.

Key definitions: `Redaction.ofResponse`, `Redaction.ofRequest`, `Trace.redacted`.
-/
import Raop.Scene
import Raop.Scene.Outcome

namespace Raop

namespace Redaction

/-- What stands for a local port. -/
def star : String := "*"

/-- The key of an option, if it has a value. -/
def keyOf? (o : String) : Option String :=
  match o.splitOn "=" with
  | key :: _ :: _ => some key
  | _ => none

/-- Options whose value is a port of a channel. -/
def portKeys : List String := [Transport.controlPort, Transport.timingPort]

/-- What stands for a port of the sender: the name of its role in braces. -/
def senderPort (o key : String) : String :=
  match [Role.control, .timing].find? fun role =>
      o = key ++ "=" ++ Text.natText (Scene.senderPort role).toNat with
  | some role => key ++ "=\x7b" ++ role.name ++ "\x7d"
  | none => o

/-- The options of a transport that a request names: the first of each key has a local port, any
later one may have a port of the sender. -/
def requestOptions (seen : List String) : List String → List String
  | [] => []
  | o :: os =>
    match keyOf? o with
    | none => o :: requestOptions seen os
    | some key =>
      let shown :=
        if !portKeys.contains key then o
        else if seen.contains key then senderPort o key
        else key ++ "=" ++ star
      shown :: requestOptions (key :: seen) os

/-- The options of a transport that a response names: every port of a channel is a local one, and so is
the server port at the end. -/
def responseOptions : List String → List String
  | [] => []
  | o :: os =>
    let shown := match keyOf? o with
      | none => o
      | some key =>
        if portKeys.contains key || (key == Transport.serverPort && os.isEmpty) then
          key ++ "=" ++ star
        else o
    shown :: responseOptions os

/-- Header fields with the options of their transport changed. -/
def onTransport (f : List String → List String) (h : Headers) : Headers :=
  ⟨h.entries.map fun (name, value) =>
    if sameName name "Transport" then (name, ";".intercalate (f (value.splitOn ";")))
    else (name, value)⟩

/-- A response without local ports. -/
def ofResponse (r : Response) : Response := { r with headers := onTransport responseOptions r.headers }

/-- A request without local ports: a SETUP is the only one that has any. -/
def ofRequest (r : Request) : Request :=
  if r.method = .setup then { r with headers := onTransport (requestOptions []) r.headers } else r

/-- A timing packet of one of these types without its last two times. -/
def ofDatagram (types : List PayloadType) (d : Bytes) : Bytes :=
  match PayloadType.of d with
  | .ok t =>
    if d.length = 32 && types.contains t then d.take 16 ++ List.replicate 16 0 else d
  | .error _ => d

end Redaction

/-- A trace without chance. A proxy passes timing requests on as they are. -/
def Trace.redacted (isProxy : Bool) (t : Trace) : Trace :=
  let types : List PayloadType :=
    if isProxy then [.timingResponse] else [.timingRequest, .timingResponse]
  { t with
    arrived := t.arrived.map fun (role, d) => (role, Redaction.ofDatagram types d)
    responses := t.responses.map Redaction.ofResponse
    requests := t.requests.map fun (i, r) => (i, Redaction.ofRequest r) }

/-- An outcome without chance. -/
def Outcome.redacted : Outcome → Outcome
  | answer (some (.ok r)) =>
    answer (some (.ok { r with headers := Redaction.onTransport Redaction.responseOptions r.headers }))
  | o => o

end Raop
