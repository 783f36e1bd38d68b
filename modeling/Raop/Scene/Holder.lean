/-
# Holding on to channels

A holder opens and closes channels in a set, and keeps in mind the channel that
it opened last for each role. That channel can be spoken to even when it has
left the set; what becomes of that is up to the channel. On a machine without
routes a channel can be opened, but neither connected nor sent on.

Key definitions: `ChannelAct`, `Holder`, `Holder.perform`.
-/
import Raop.Net.Channel
import Raop.Scene.Outcome

namespace Raop

/-- Something that is done with channels. -/
inductive ChannelAct where
  | openRole (role : Role) (remote : Option Endpoint)
  | closeRole (role : Role)
  | closeAll
  /-- Receiving fails on the channel in the set, which ends it for good. -/
  | fail (role : Role)
  | connect (role : Role) (remote : Endpoint)
  | send (role : Role) (data : Bytes)
  | sendTo (role : Role) (data : Bytes) (target : Endpoint)
  /-- The channel is closed; was it open? -/
  | close (role : Role)
  /-- Somebody sends a datagram to the channel. -/
  | deliver (role : Role) (data : Bytes) (source : Endpoint)
  deriving Repr, Inhabited

/-- A set of channels, the channels kept in mind, what was sent and where, and what was taken. -/
structure Holder where
  channels : ChannelSet := {}
  held : List (Role × Nat) := []
  sent : List (Endpoint × Bytes) := []
  taken : List (Role × Bytes) := []
  deriving Repr, Inhabited

namespace Holder

/-- The channel kept in mind for a role. -/
def channel? (h : Holder) (role : Role) : Option Channel :=
  (h.held.lookup role).bind h.channels.find?

/-- The channels of the set changed. -/
def withChannels (h : Holder) (f : ChannelSet → ChannelSet) : Holder :=
  { h with channels := f h.channels }

/-- Something is done with the channel kept in mind for a role, if there is one. -/
def onHeld (h : Holder) (role : Role) (f : Channel → Outcome × Holder) : Outcome × Holder :=
  match h.channel? role with
  | none => (.noChannel, h)
  | some c => f c

/-- Why nothing leaves a machine without routes. -/
def unreachable : Error := .network "network" "unreachable"

/-- A datagram leaves for its target, if there is a way. -/
def depart (h : Holder) (routed : Bool) (data : Bytes) : Except Error Endpoint → Outcome × Holder
  | .error e => (.failed e, h)
  | .ok target =>
    if routed then (.done, { h with sent := h.sent ++ [(target, data)] })
    else (.failed unreachable, h)

/-- An act is performed. -/
def perform (binder : Binder) (routed : Bool) (localEnd : Endpoint) (h : Holder) :
    ChannelAct → Outcome × Holder
  | .openRole role remote =>
    match h.channels.openRole binder role localEnd remote with
    | (.ok c, channels) => (.done, { h with channels, held := (role, c.id) :: h.held })
    | (.error e, channels) => (.failed e, { h with channels })
  | .closeRole role => (.done, h.withChannels (·.closeRole role))
  | .closeAll => (.done, h.withChannels ChannelSet.closeAll)
  | .fail role =>
    match h.channels.get? role with
    | none => (.flag false, h)
    | some c =>
      (.flag true, h.withChannels (·.modify c.id fun c => { c with receiving := false }))
  | .connect role remote => h.onHeld role fun c =>
    match c.connect remote with
    | .error e => (.failed e, h)
    | .ok c' =>
      if routed then (.done, h.withChannels (·.modify c.id fun _ => c'))
      else (.failed unreachable, h)
  | .send role data => h.onHeld role fun c => h.depart routed data (c.send data)
  | .sendTo role data target => h.onHeld role fun c => h.depart routed data (c.sendTo data target)
  | .close role => h.onHeld role fun c =>
    (.flag c.isOpen, h.withChannels (·.modify c.id Channel.close))
  | .deliver role data source => h.onHeld role fun c =>
    if !routed then (.noRoute, h)
    else if c.accepts source then
      (.done, { h with taken := h.taken ++ [(role, Channel.taken data)] })
    else (.done, h)

end Holder
end Raop
