/-
# Names of announced services

A receiver is announced under its hardware address in twelve upper-case
hexadecimal digits, `@` and its name. The full name of the service adds a dot
and the type.

Key definitions: `serviceType`, `instanceName`, `instanceOf`, `parseInstance?`, `parseMac`.
-/
import Raop.Config.Service

namespace Raop.Discovery

/-- The type of announced receivers. -/
def serviceType : String := "_raop._tcp.local."

/-- What an announcement says beside its name. -/
def properties : List (String × String) :=
  [("txtvers", "1"), ("tp", "UDP"), ("ch", "2"), ("ss", "16"), ("sr", "44100"), ("pw", "false"),
    ("sm", "false"), ("sv", "false"), ("ek", "1"), ("et", "0,1"), ("cn", "0,1"), ("vn", "3")]

/-- Two upper-case hexadecimal digits. -/
def hexPair (b : UInt8) : List Char := ((Text.hexText 2 b.toNat).toList).map Char.toUpper

/-- A hardware address in upper-case hexadecimal digits. -/
def macText (mac : MacAddress) : String := String.ofList (mac.toList.flatMap hexPair)

/-- The name under which a receiver is announced. -/
def instanceName (mac : MacAddress) (name : String) : String := macText mac ++ "@" ++ name

/-- The full name of a service. -/
def fullName (inst : String) : String := inst ++ "." ++ serviceType

/-- The instance in a full name: without the type at its end and the dots before it. -/
def instanceOf (full : String) : String :=
  let cs := full.toList
  let type := serviceType.toList
  if type.isSuffixOf cs then
    String.ofList (Text.trimEndOf '.' (cs.take (cs.length - type.length)))
  else full

/-- Characters in upper case, as far as hexadecimal digits come of it: the ligature U+FB00 is two
letters, and no other character outside ASCII yields a digit. -/
def upper (cs : List Char) : List Char :=
  cs.flatMap fun c => if c = '\uFB00' then ['F', 'F'] else [c.toUpper]

/-- The hardware address and the name in an instance name. -/
def parseInstance? (inst : String) : Option (String × String) := do
  let (mac, name) ← Text.splitAt? '@' inst.toList
  let mac := upper mac
  if mac.length = 12 ∧ mac.all (fun c => (Text.hexDigit? c).isSome) then
    return (String.ofList mac, String.ofList name)
  else none

/-- Why a receiver is not announced. -/
inductive AdvertiserError where
  | mdns (detail : String)
  | notRegistered
  | alreadyRegistered
  | macRetrievalFailed (detail : String)
  deriving DecidableEq, Repr, Inhabited

/-- The text of the error. -/
def AdvertiserError.message : AdvertiserError → String
  | mdns detail => "mDNS error: " ++ detail
  | notRegistered => "Service not registered"
  | alreadyRegistered => "Service already registered"
  | macRetrievalFailed detail => "Failed to retrieve MAC address: " ++ detail

instance : ToString AdvertiserError := ⟨AdvertiserError.message⟩

/-- The octet that a part of a hardware address writes. -/
def readOctet (part : List Char) : Except AdvertiserError UInt8 :=
  match Text.readHexBelow? 256 part with
  | some n => .ok (UInt8.ofNat n)
  | none => .error (.macRetrievalFailed ("Invalid hex: " ++ String.ofList part))

/-- The hardware address in a text: six hexadecimal octets between colons. -/
def parseMac (text : String) : Except AdvertiserError MacAddress :=
  match Text.split ':' text.toList with
  | [a, b, c, d, e, f] => do
    let a ← readOctet a
    let b ← readOctet b
    let c ← readOctet c
    let d ← readOctet d
    let e ← readOctet e
    let f ← readOctet f
    return #v[a, b, c, d, e, f]
  | _ => .error (.macRetrievalFailed ("Invalid MAC format: " ++ text))

end Raop.Discovery
