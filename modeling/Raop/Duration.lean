/-
# Spans of time

A span is whole seconds and nanoseconds below one second.

Key definitions: `Duration`, `Duration.ofSeconds?`.
-/
import Raop.Number.Rounding

namespace Raop

/-- A span of time. -/
structure Duration where
  secs : Nat
  nanos : Nat := 0
  deriving DecidableEq, Repr, Inhabited

namespace Duration

/-- Nanoseconds in a second. -/
def perSecond : Nat := 1000000000

/-- The span of a number of nanoseconds. -/
def ofNanos (n : Nat) : Duration := ⟨n / perSecond, n % perSecond⟩

/-- The span in nanoseconds. -/
def toNanos (d : Duration) : Nat := d.secs * perSecond + d.nanos

/-- The seconds of a span fit into 64 bits. -/
def fits (d : Duration) : Bool := d.secs < 18446744073709551616

/-- The span nearest to a number of seconds, a tie to the even nanosecond; nothing if it does not fit. -/
def ofSeconds? (x : Float) : Option Duration :=
  let bits := x.toBits.toNat
  let exponent := bits / 4503599627370496 % 2048
  let fraction := bits % 4503599627370496
  if 9223372036854775808 ≤ bits ∨ exponent = 2047 then none
  else
    let m := if exponent = 0 then fraction else fraction + 4503599627370496
    let q : Int := (max exponent 1 : Int) - 1075
    let units := m * perSecond
    let n := if 0 ≤ q then units * Nat.pow 2 q.toNat else roundHalfEven units (Nat.pow 2 (-q).toNat)
    let d := ofNanos n
    if d.fits then some d else none

end Duration
end Raop
