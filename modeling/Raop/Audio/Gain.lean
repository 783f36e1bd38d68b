/-
# Volume and gain

Senders give the volume in decibels from -30 to 0, with -144 for silence. A
device has a range of gain; between the two the mapping is linear and stays
within both ranges. All arithmetic is single precision, in the order written.

Key definitions: `GainMapping`, `GainMapping.toDevice`, `GainMapping.toDecibels`.
-/
namespace Raop

/-- The least and the greatest gain of a device. -/
structure GainMapping where
  min : Float32 := 0
  max : Float32 := 1
  deriving Inhabited

namespace GainMapping

/-- The lower end of the volume. -/
def minDecibels : Float32 := -30

/-- The upper end of the volume. -/
def maxDecibels : Float32 := 0

/-- The volume of silence. -/
def mute : Float32 := -144

/-- The greater of two numbers, the other one if one is no number. -/
def greater (a b : Float32) : Float32 := if a.isNaN then b else if a < b then b else a

/-- The lesser of two numbers, the other one if one is no number. -/
def lesser (a b : Float32) : Float32 := if a.isNaN then b else if b < a then b else a

/-- A number brought between two others, given in any order. -/
def between (x a b : Float32) : Float32 := lesser (greater x (lesser a b)) (greater a b)

/-- The gain of a volume. -/
def toDevice (m : GainMapping) (db : Float32) : Float32 :=
  if db ≤ mute || db.isNaN then m.min
  else
    let fraction := (db - minDecibels) / (maxDecibels - minDecibels)
    between (fraction * (m.max - m.min) + m.min) m.min m.max

/-- The volume of a gain. -/
def toDecibels (m : GainMapping) (gain : Float32) : Float32 :=
  let span := m.max - m.min
  if span == 0 then maxDecibels
  else
    let fraction := (gain - m.min) / span
    let db := fraction * (maxDecibels - minDecibels) + minDecibels
    if db < minDecibels then minDecibels else if maxDecibels < db then maxDecibels else db

end GainMapping
end Raop
