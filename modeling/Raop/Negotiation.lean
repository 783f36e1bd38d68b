/-
# Negotiating the transport

The options of a SETUP are answered in the order they were asked. Interleaving
and mode are checked and echoed; a control or timing port opens a channel to
that port of the client and is answered with the local port; any other option
is echoed. The audio channel is opened last, unconnected.

How a channel is opened is left open: an opener takes a state to the state
after it and gives a local port or an error.

Key definitions: `Opener`, `ChannelSet.opener`, `Negotiation.answerOption`, `Negotiation.negotiate`.
-/
import Raop.Error
import Raop.Net.Channel
import Raop.Net.Ports

namespace Raop

/-- How channels are opened: for a role, connected to a remote endpoint or not. -/
abbrev Opener (σ : Type) := Role → Option Endpoint → σ → Except Error UInt16 × σ

/-- Channels are opened in a set, at an address and the port of their role. -/
def ChannelSet.opener (binder : Binder) (ports : RtpPorts) (ip : IpAddress) : Opener ChannelSet :=
  fun role remote set =>
    match set.openRole binder role ⟨ip, ports.ofRole role⟩ remote with
    | (.ok c, set) => (.ok c.port, set)
    | (.error e, set) => (.error e, set)

namespace Negotiation

/-- The role of the channel that an option asks for. -/
def roleOf? (key : String) : Option Role :=
  if key = Transport.controlPort then some .control
  else if key = Transport.timingPort then some .timing
  else none

/-- The value that an option must have, if it must have a certain one. -/
def required? (key : String) : Option String :=
  if key = Transport.interleaved then some "0-1"
  else if key = Transport.mode then some "record"
  else none

/-- The port that an option names. -/
def portOf (o : TransportOption) : Except Error UInt16 :=
  let value := o.value.getD ""
  match o.value.bind fun v => Text.readU16? v.toList with
  | some port => .ok port
  | none => .error (.transport (.invalidPort o.key value))

variable {σ : Type}

/-- The answer to an option. -/
def answerOption (opener : Opener σ) (client : IpAddress) (o : TransportOption) (s : σ) :
    Except Error TransportOption × σ :=
  match roleOf? o.key with
  | some role =>
    match portOf o with
    | .error e => (.error e, s)
    | .ok port =>
      match opener role (some ⟨client, port⟩) s with
      | (.error e, s) => (.error e, s)
      | (.ok localPort, s) => (.ok (o.withValue (Text.natText localPort.toNat)), s)
  | none =>
    match required? o.key with
    | some value =>
      if o.value = some value then (.ok o, s)
      else (.error (.transport (.unsupportedValue o.key (o.value.getD ""))), s)
    | none => (.ok o, s)

/-- The answers to options, in order, up to the first that is refused. -/
def answerOptions (opener : Opener σ) (client : IpAddress) :
    List TransportOption → σ → Except Error (List TransportOption) × σ
  | [], s => (.ok [], s)
  | o :: os, s =>
    match answerOption opener client o s with
    | (.error e, s) => (.error e, s)
    | (.ok a, s) =>
      match answerOptions opener client os s with
      | (.error e, s) => (.error e, s)
      | (.ok as, s) => (.ok (a :: as), s)

/-- The answer to a transport specification. -/
def negotiate (opener : Opener σ) (client : IpAddress) (value : String) (s : σ) :
    Except Error Transport × σ :=
  match Transport.parse value with
  | .error e => (.error (.transport e), s)
  | .ok request =>
    match answerOptions opener client request.options s with
    | (.error e, s) => (.error e, s)
    | (.ok options, s) =>
      match opener .audio none s with
      | (.error e, s) => (.error e, s)
      | (.ok port, s) =>
        let server : TransportOption :=
          { key := Transport.serverPort, value := some (Text.natText port.toNat) }
        (.ok { options := options ++ [server] }, s)

end Negotiation
end Raop
