/-
# Roles of channels

A stream uses three datagram channels.

Key definitions: `Role`, `Role.ordinal`, `Role.name`.
-/
namespace Raop

/-- What a channel is for. -/
inductive Role where
  | audio
  | control
  | timing
  deriving DecidableEq, Repr, Inhabited

namespace Role

/-- Every role, in the order of their ports. -/
def all : List Role := [audio, control, timing]

/-- The place of a role's port among the three. -/
def ordinal : Role → Nat
  | audio => 0
  | control => 1
  | timing => 2

/-- The name of a role. -/
def name : Role → String
  | audio => "audio"
  | control => "control"
  | timing => "timing"

end Role
end Raop
