/-
# Who asked for the time

Timing responses come back on one channel for requests from many peers. Each
request is remembered under its send time, which the response gives back, for
a limited time; an answer uses the entry up.

Key definitions: `TimingKeys`, `TimingKeys.observe`, `TimingKeys.resolve`.
-/
namespace Raop

/-- An open request: its key, where it came from and when it was seen. -/
structure TimingEntry (α : Type) where
  key : UInt64
  origin : α
  seen : Nat
  deriving DecidableEq, Repr

/-- The open requests and how long they are remembered. Times are in one unit throughout. -/
structure TimingKeys (α : Type) where
  ttl : Nat
  entries : List (TimingEntry α) := []
  deriving DecidableEq, Repr

namespace TimingKeys

variable {α : Type}

/-- An entry is not older than it may be. -/
def fresh (ttl now : Nat) (e : TimingEntry α) : Bool := now ≤ e.seen + ttl

/-- A request is remembered, instead of one of the same key; what is too old is forgotten. -/
def observe (t : TimingKeys α) (now : Nat) (key : UInt64) (origin : α) : TimingKeys α :=
  let kept := (t.entries.filter (fresh t.ttl now)).filter fun e => e.key ≠ key
  { t with entries := { key, origin, seen := now } :: kept }

/-- The origin of a request, which is forgotten with that; nothing if it is unknown or too old. -/
def resolve (t : TimingKeys α) (now : Nat) (key : UInt64) : Option α × TimingKeys α :=
  match t.entries.find? fun e => e.key = key with
  | none => (none, t)
  | some e =>
    (if fresh t.ttl now e then some e.origin else none,
      { t with entries := t.entries.filter fun e => e.key ≠ key })

/-- The number of open requests. -/
def size (t : TimingKeys α) : Nat := t.entries.length

/-- Nothing is remembered. -/
def clear (t : TimingKeys α) : TimingKeys α := { t with entries := [] }

end TimingKeys
end Raop
