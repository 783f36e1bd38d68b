/-
# Sinks

A sink takes decoded packets. One that keeps them answers every question from
what it was told; a silent one keeps its gain alone. A device may be unable to
start or to take a packet.

Key definitions: `Sink`, `Sink.start`, `Sink.enqueue`, `Sink.flush`, `Sink.stop`.
-/
import Raop.Audio.Format
import Raop.Ntp

namespace Raop

/-- Why a sink refuses. -/
inductive SinkError where
  | closed
  | device (detail : String)
  deriving DecidableEq, Repr, Inhabited

/-- The text of the error. -/
def SinkError.message : SinkError → String
  | closed => "output closed"
  | device detail => "device error: " ++ detail

instance : ToString SinkError := ⟨SinkError.message⟩

/-- What a sink plays and what it was told. -/
structure Sink where
  /-- Packets are kept, and refused while the sink is stopped. -/
  keeps : Bool := true
  format : Option AudioFormat := none
  /-- Packets since the last flush, oldest first. -/
  packets : List (UInt32 × List Int16) := []
  flushes : Nat := 0
  lastSync : Option (UInt32 × NtpTime) := none
  clockOffset : Option Int := none
  minGain : Float32 := 0
  maxGain : Float32 := 1
  gain : Float32 := maxGain
  /-- Why the device cannot start, if it cannot. -/
  startFault : Option String := none
  /-- Why the device cannot take a packet, if it cannot. -/
  enqueueFault : Option String := none
  deriving Inhabited

namespace Sink

/-- A sink that keeps nothing. -/
def silent : Sink := { keeps := false }

/-- Playing starts in a format. -/
def start (s : Sink) (format : AudioFormat) : Except SinkError Sink :=
  match s.startFault with
  | some detail => .error (.device detail)
  | none => .ok (if s.keeps then { s with format := some format } else s)

/-- A packet to play. -/
def enqueue (s : Sink) (timestamp : UInt32) (samples : List Int16) : Except SinkError Sink :=
  match s.enqueueFault with
  | some detail => .error (.device detail)
  | none =>
    if !s.keeps then .ok s
    else if s.format.isNone then .error .closed
    else .ok { s with packets := s.packets ++ [(timestamp, samples)] }

/-- What was not played yet is dropped. -/
def flush (s : Sink) : Sink :=
  if s.keeps then { s with packets := [], flushes := s.flushes + 1 } else s

/-- Playing stops. -/
def stop (s : Sink) : Sink := { s with format := none }

/-- The gain changes. -/
def setGain (s : Sink) (gain : Float32) : Sink := { s with gain }

/-- A media timestamp plays at a time. -/
def sync (s : Sink) (timestamp : UInt32) (time : NtpTime) : Sink :=
  if s.keeps then { s with lastSync := some (timestamp, time) } else s

/-- The sender's clock is ahead by so many microseconds. -/
def setClockOffset (s : Sink) (micros : Int) : Sink :=
  if s.keeps then { s with clockOffset := some micros } else s

end Sink
end Raop
