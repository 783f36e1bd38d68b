/-
# Following the sender's clock

Every timing response gives an estimate of the offset between the clocks. The
first is taken as it is; each later one moves the average halfway toward it,
and from the eleventh on by a tenth.

Key definitions: `ClockSync`, `ClockSync.update`.
-/
import Raop.Datagram.Timing

namespace Raop

/-- The offset to the sender's clock, in microseconds. -/
structure ClockSync where
  offset : Int := 0
  roundTrip : Int := 0
  /-- Responses seen, up to the largest 32-bit number. -/
  count : Nat := 0
  average : Float := 0
  deriving Inhabited

namespace ClockSync

/-- The share of a new estimate. -/
def share (count : Nat) : Float := if count < 10 then 0.5 else 0.1

/-- A response arrived. The offset is the average with its fraction cut off. -/
def update (c : ClockSync) (response : TimingPacket) (arrival : NtpTime) : ClockSync :=
  let estimate := Float.ofInt (response.clockOffset arrival)
  let average :=
    if c.count = 0 then estimate
    else (1.0 - share c.count) * c.average + share c.count * estimate
  { offset := average.toInt64.toInt
    roundTrip := response.roundTrip arrival
    count := min (c.count + 1) 4294967295
    average }

/-- No response was seen. -/
def isStale (c : ClockSync) : Bool := c.count = 0

end ClockSync
end Raop
