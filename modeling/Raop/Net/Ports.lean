/-
# Local ports of the channels

Three ports, one for each role. Counted from a first port they stop at the
highest one; from zero all three are left to the system.

Key definitions: `RtpPorts`, `RtpPorts.ofFirst`, `RtpPorts.ofRole`.
-/
import Raop.Net.Role

namespace Raop

/-- The local port of each role; zero leaves the choice to the system. -/
structure RtpPorts where
  audio : UInt16 := 56300
  control : UInt16 := 56301
  timing : UInt16 := 56302
  deriving DecidableEq, Repr, Inhabited

namespace RtpPorts

/-- All ports left to the system. -/
def ephemeral : RtpPorts := ⟨0, 0, 0⟩

/-- A port number, or the highest one. -/
def clamp (n : Nat) : UInt16 := UInt16.ofNat (min n 65535)

/-- Three ports from a first one on. -/
def ofFirst (first : UInt16) : RtpPorts :=
  if first = 0 then ephemeral
  else ⟨first, clamp (first.toNat + 1), clamp (first.toNat + 2)⟩

/-- The port of a role. -/
def ofRole (p : RtpPorts) : Role → UInt16
  | .audio => p.audio
  | .control => p.control
  | .timing => p.timing

/-- The ports in the order of their roles. -/
def toList (p : RtpPorts) : List UInt16 := Role.all.map p.ofRole

end RtpPorts
end Raop
