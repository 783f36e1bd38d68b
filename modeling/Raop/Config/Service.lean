/-
# Configuration of the service

Key definitions: `ServiceConfig`, `ServiceConfig.ofValue?`,
`ServiceConfig.toValue`.
-/
import Raop.Config.Proxy
import Raop.Config.Receiver

namespace Raop

/-- Which servers run, under which hardware address, and whether they are announced. -/
structure ServiceConfig where
  player : Option ReceiverConfig := some {}
  proxy : Option ProxyConfig := none
  macAddress : Option MacAddress := none
  advertise : Bool := true
  deriving DecidableEq, Repr, Inhabited

namespace ServiceConfig

/-- The names of the members. -/
def names : List String := ["player", "proxy", "mac_address", "advertise"]

/-- A hardware address as a list of six octets. -/
def mac? (v : Value) : Option MacAddress := do
  let octets ← v.list? (Value.nat? 256)
  if h : octets.length = 6 then
    return ⟨(octets.map UInt8.ofNat).toArray, by simp [h]⟩
  else none

/-- The service in a configuration; a missing member has its default. -/
def ofValue? (v : Value) : Option ServiceConfig := do
  let m ← v.members? names
  let d : ServiceConfig := {}
  let player ← Value.get m "player" (Value.optional? ReceiverConfig.ofValue?) d.player
  let proxy ← Value.get m "proxy" (Value.optional? ProxyConfig.ofValue?) d.proxy
  let macAddress ← Value.get m "mac_address" (Value.optional? mac?) d.macAddress
  let advertise ← Value.get m "advertise" Value.bool? d.advertise
  return { player, proxy, macAddress, advertise }

/-- The service as a value. -/
def toValue (c : ServiceConfig) : Value :=
  .object [("player", .ofOption ReceiverConfig.toValue c.player),
    ("proxy", .ofOption ProxyConfig.toValue c.proxy),
    ("mac_address", .ofOption (fun m => .list (m.toList.map fun b => .ofNat b.toNat)) c.macAddress),
    ("advertise", .bool c.advertise)]

end ServiceConfig
end Raop
