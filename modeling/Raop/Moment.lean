/-
# Instants

Key definitions: `Moment`.
-/
import Raop.Ntp

namespace Raop

/-- An instant: on the clock that measures spans, in nanoseconds, and on the clock that tells the time. -/
structure Moment where
  ticks : Nat
  time : NtpTime := {}
  deriving DecidableEq, Repr, Inhabited

end Raop
