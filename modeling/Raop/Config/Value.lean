/-
# Values of a configuration file

A configuration is a tree of values. A record is an object whose members may
stand in any order and may be missing, or a list of its members in order.
Readers of single members refuse any value of another kind.

Key definitions: `Value`, `Value.members?`, `Value.nat?`, `Value.optional?`.
-/
import Raop.Duration
import Raop.Net.Address

namespace Raop

/-- A value in a configuration. -/
inductive Value where
  | null
  | bool (b : Bool)
  | integer (n : Int)
  /-- A number that is not written as an integer. -/
  | fraction
  | text (s : String)
  | list (items : List Value)
  | object (members : List (String × Value))
  deriving Inhabited

namespace Value

/-- The members of a record by name. -/
def members? (names : List String) : Value → Option (String → Option Value)
  | object members => some fun name => (members.find? fun m => m.1 == name).map (·.2)
  | list items =>
    if items.length ≤ names.length then
      some fun name => ((names.zip items).find? fun m => m.1 == name).map (·.2)
    else none
  | _ => none

/-- A member read, or its default if it is missing. -/
def get {α : Type} (members : String → Option Value) (name : String) (read : Value → Option α)
    (default : α) : Option α :=
  match members name with
  | some v => read v
  | none => some default

/-- A natural number below a bound. -/
def nat? (bound : Nat) : Value → Option Nat
  | integer n => if 0 ≤ n ∧ n < bound then some n.toNat else none
  | _ => none

/-- A 16-bit number. -/
def u16? (v : Value) : Option UInt16 := (v.nat? 65536).map UInt16.ofNat

/-- A size: at most 64 bits. -/
def size? (v : Value) : Option Nat := v.nat? 18446744073709551616

/-- A truth value. -/
def bool? : Value → Option Bool
  | bool b => some b
  | _ => none

/-- A text. -/
def text? : Value → Option String
  | text s => some s
  | _ => none

/-- A list whose items are read one by one. -/
def list? {α : Type} (read : Value → Option α) : Value → Option (List α)
  | list items => items.mapM read
  | _ => none

/-- A value that may be null. -/
def optional? {α : Type} (read : Value → Option α) : Value → Option (Option α)
  | null => some none
  | v => (read v).map some

/-- An internet address. -/
def address? (v : Value) : Option IpAddress := v.text?.bind IpAddress.parse?

/-- A span of time: seconds and nanoseconds, both required and nothing else. A second or more of
nanoseconds is carried over. -/
def duration? (v : Value) : Option Duration := do
  let names := ["secs", "nanos"]
  let members ← v.members? names
  match v with
  | object ms => if ms.any fun m => !names.contains m.1 then none
  | _ => pure ()
  let secs ← (← members "secs").size?
  let nanos ← (← members "nanos").nat? 4294967296
  let d : Duration := ⟨secs + nanos / Duration.perSecond, nanos % Duration.perSecond⟩
  if d.fits then return d else none

/-- A natural number as a value. -/
def ofNat (n : Nat) : Value := integer n

/-- A port as a value. -/
def ofPort (p : UInt16) : Value := ofNat p.toNat

/-- A span of time as a value. -/
def ofDuration (d : Duration) : Value :=
  object [("secs", ofNat d.secs), ("nanos", ofNat d.nanos)]

/-- A value that may be missing. -/
def ofOption {α : Type} (write : α → Value) : Option α → Value
  | some a => write a
  | none => null

end Value
end Raop
