/-
# Internet addresses

An address is 32 or 128 bits. Version 4 is four decimal octets without leading
zeros. Version 6 is eight groups of up to four hexadecimal digits, of which one
run may be left out as `::` and the last two may be written as version 4; it
is written in the recommended form, with the first longest run of two or more
zero groups left out, and with a mapped version 4 address in decimal.

Key definitions: `IpAddress`, `IpAddress.parse?`, `IpAddress.render`, `IpAddress.canonical`,
`MacAddress`, `Endpoint`.
-/
import Raop.Bytes
import Raop.Text.Numeral
import Raop.Text.Split

namespace Raop

/-- An internet address of either version. -/
inductive IpAddress where
  | v4 (bits : BitVec 32)
  | v6 (bits : BitVec 128)
  deriving DecidableEq, Repr, Inhabited

namespace IpAddress

/-- The address of this host. -/
def loopback4 : IpAddress := v4 0x7F000001#32

/-- The address of this host, version 6. -/
def loopback6 : IpAddress := v6 1#128

/-- No particular address. -/
def unspecified4 : IpAddress := v4 0#32

/-- No particular address, of the same version. -/
def unspecifiedLike : IpAddress → IpAddress
  | v4 _ => v4 0#32
  | v6 _ => v6 0#128

/-- The octets, most significant first. -/
def octets : IpAddress → Bytes
  | v4 bits => Bytes.ofNatBE 4 bits.toNat
  | v6 bits => Bytes.ofNatBE 16 bits.toNat

/-- A decimal octet: up to three digits, no leading zero. -/
def readOctet? (cs : List Char) : Option Nat :=
  if cs.isEmpty ∨ 3 < cs.length ∨ !cs.all Char.isDigit ∨ (1 < cs.length ∧ cs.head? = some '0')
  then none
  else
    let n := Text.digitsValue cs
    if n < 256 then some n else none

/-- The number of a version 4 address. -/
def readV4? (cs : List Char) : Option Nat :=
  match (Text.split '.' cs).mapM readOctet? with
  | some [a, b, c, d] => some (((a * 256 + b) * 256 + c) * 256 + d)
  | _ => none

/-- A group of version 6. -/
def readGroup? (cs : List Char) : Option Nat := do
  if cs.isEmpty ∨ 4 < cs.length then none
  let digits ← cs.mapM Text.hexDigit?
  return digits.foldl (fun n d => n * 16 + d) 0

/-- Groups between colons, the last two of them as version 4 if that is allowed. -/
def readParts? (v4Last : Bool) : List (List Char) → Option (List Nat)
  | [] => some []
  | [part] =>
    match readGroup? part with
    | some g => some [g]
    | none => if v4Last then (readV4? part).map fun n => [n / 65536, n % 65536] else none
  | part :: parts => do
    let g ← readGroup? part
    let gs ← readParts? v4Last parts
    return g :: gs

/-- Groups of a text that may be empty. -/
def readGroups? (v4Last : Bool) (cs : List Char) : Option (List Nat) :=
  if cs.isEmpty then some [] else readParts? v4Last (Text.split ':' cs)

/-- The text before the first double colon and the text after it. -/
def splitDoubleColon? : List Char → Option (List Char × List Char)
  | [] => none
  | ':' :: ':' :: rest => some ([], rest)
  | c :: rest => (splitDoubleColon? rest).map fun (before, after) => (c :: before, after)

/-- The eight groups of a version 6 address. -/
def readV6? (cs : List Char) : Option (List Nat) :=
  match splitDoubleColon? cs with
  | none => (readGroups? true cs).bind fun gs => if gs.length = 8 then some gs else none
  | some (before, after) => do
    let front ← readGroups? false before
    let back ← readGroups? true after
    if front.length + back.length ≤ 7 then
      return front ++ List.replicate (8 - front.length - back.length) 0 ++ back
    else none

/-- The address in a text. -/
def parse? (s : String) : Option IpAddress :=
  match readV4? s.toList with
  | some n => some (v4 (BitVec.ofNat 32 n))
  | none => (readV6? s.toList).map fun gs =>
    v6 (BitVec.ofNat 128 (gs.foldl (fun n g => n * 65536 + g) 0))

/-- The version 4 address that a mapped version 6 address stands for. -/
def mapped? : IpAddress → Option (BitVec 32)
  | v4 _ => none
  | v6 bits =>
    if bits.toNat / 4294967296 = 0xFFFF then some (BitVec.ofNat 32 bits.toNat) else none

/-- The address, a mapped one as version 4. -/
def canonical (ip : IpAddress) : IpAddress :=
  match ip.mapped? with
  | some bits => v4 bits
  | none => ip

/-- The address is version 6. -/
def isV6 : IpAddress → Bool
  | v4 _ => false
  | v6 _ => true

/-- An address of the host itself. -/
def isLoopback : IpAddress → Bool
  | v4 bits => bits.toNat / 16777216 = 127
  | v6 bits => bits.toNat = 1

/-- No particular address. -/
def isUnspecified : IpAddress → Bool
  | v4 bits => bits.toNat = 0
  | v6 bits => bits.toNat = 0

/-- The groups of a version 6 address. -/
def groups (bits : BitVec 128) : List Nat :=
  (List.range 8).map fun i => bits.toNat / Nat.pow 65536 (7 - i) % 65536

/-- The length of the run of zeros at the front. -/
def zeroRun (gs : List Nat) : Nat := (gs.takeWhile (· == 0)).length

/-- The first longest run of zeros, as its position and its length. -/
def longestZeroRun (gs : List Nat) : Nat × Nat :=
  (List.range gs.length).foldl (fun best i =>
    let n := zeroRun (gs.drop i)
    if best.2 < n then (i, n) else best) (0, 0)

/-- Four decimal octets. -/
def renderV4 (n : Nat) : String :=
  ".".intercalate ((Bytes.ofNatBE 4 n).map fun b => Text.natText b.toNat)

/-- Groups with colons between them. -/
def renderGroups (gs : List Nat) : String := ":".intercalate (gs.map (Text.hexText 1))

/-- The text of an address. -/
def render (ip : IpAddress) : String :=
  match ip with
  | v4 bits => renderV4 bits.toNat
  | v6 bits =>
    match ip.mapped? with
    | some low => "::ffff:" ++ renderV4 low.toNat
    | none =>
      let gs := groups bits
      let (start, n) := longestZeroRun gs
      if n < 2 then renderGroups gs
      else renderGroups (gs.take start) ++ "::" ++ renderGroups (gs.drop (start + n))

/-- The order of addresses: version 4 first, then by number. -/
def before (a b : IpAddress) : Bool :=
  match a, b with
  | v4 x, v4 y => x.toNat < y.toNat
  | v6 x, v6 y => x.toNat < y.toNat
  | v4 _, v6 _ => true
  | v6 _, v4 _ => false

end IpAddress

/-- A hardware address: six octets. -/
abbrev MacAddress := Vector UInt8 6

/-- An address and a port. -/
structure Endpoint where
  ip : IpAddress
  port : UInt16
  deriving DecidableEq, Repr, Inhabited

namespace Endpoint

/-- The text of an endpoint, a version 6 address in brackets. -/
def render (e : Endpoint) : String :=
  (if e.ip.isV6 then "[" ++ e.ip.render ++ "]" else e.ip.render) ++ ":" ++
    Text.natText e.port.toNat

/-- A host without the brackets around it. -/
def unbracket (host : List Char) : List Char :=
  match host with
  | '[' :: rest => if rest.getLast? = some ']' then rest.dropLast else host
  | host => host

/-- The endpoint in a text. -/
def parse? (text : String) : Option Endpoint := do
  let (host, port) ← Text.splitLast? ':' text.toList
  let ip ← IpAddress.parse? (String.ofList (unbracket host))
  let port ← Text.readU16? port
  return { ip, port }

end Endpoint
end Raop
