/-
# Announced names are found again

A receiver is announced under the digits of its hardware address, `@` and its
name, and the full name of the service ends with its type. What is found in a
full name is what was announced, without the dots at its end
(`instanceOf_fullName`): the dot in front of the type goes, and so do any that the
name ends with. The digits hold no `@`, so the name may (`parseInstance?_digits`).
Hence a name is found as it was announced exactly if it does not end with a dot
(`found_iff`).

Key definitions: `upperDigits`, `upperDigit`, `octetDigits`.
Key theorems: `instanceOf_fullName`, `toList_macText`, `upper_macText`, `parseInstance?_digits`,
`parseInstance?_instanceOf`, `found_iff`, `DiscoveredPeer.name_of_announced`.
-/
import Mathlib.Data.List.GetD
import Raop.Discovery.Advertiser
import Raop.Discovery.Browser
import Raop.Proofs.Text.Blank

namespace Raop

open Text

namespace Discovery

/-! ### Hardware addresses -/

/-- The upper-case hexadecimal digits in order. -/
def upperDigits : List Char :=
  ['0', '1', '2', '3', '4', '5', '6', '7', '8', '9', 'A', 'B', 'C', 'D', 'E', 'F']

/-- The upper-case hexadecimal digit of a number below sixteen. -/
def upperDigit (n : Nat) : Char := upperDigits.getD n '0'

/-- The two upper-case hexadecimal digits of an octet. -/
def octetDigits (b : UInt8) : List Char := [upperDigit (b.toNat / 16), upperDigit (b.toNat % 16)]

theorem hexPair_eq (b : UInt8) : hexPair b = octetDigits b := by
  have hall : ∀ n : Fin 256,
      (List.replicate (2 - (Nat.toDigits 16 n).length) '0' ++ Nat.toDigits 16 n).map Char.toUpper =
        [upperDigit (n / 16), upperDigit (n % 16)] := by
    decide +kernel
  rw [hexPair, hexText, String.toList_ofList]
  exact hall ⟨b.toNat, b.toNat_lt⟩

/-- A hardware address is written as two digits for each of its octets. -/
theorem toList_macText (mac : MacAddress) : (macText mac).toList = mac.toList.flatMap octetDigits := by
  rw [macText, String.toList_ofList, funext hexPair_eq]

theorem length_macText (mac : MacAddress) : (macText mac).toList.length = 12 := by
  simp [toList_macText, octetDigits]

theorem upperDigit_mem (n : Nat) : upperDigit n ∈ upperDigits := by
  rcases Nat.lt_or_ge n upperDigits.length with hlt | hge
  · rw [upperDigit, List.getD_eq_getElem _ _ hlt]
    exact List.getElem_mem hlt
  · rw [upperDigit, List.getD_eq_default _ _ hge]
    decide

theorem mem_macText {mac : MacAddress} {c : Char} (h : c ∈ (macText mac).toList) : c ∈ upperDigits := by
  rw [toList_macText, List.mem_flatMap] at h
  obtain ⟨b, -, hc⟩ := h
  rw [octetDigits, List.mem_pair] at hc
  rcases hc with rfl | rfl <;> exact upperDigit_mem _

/-- An upper-case digit is one, and stays what it is in upper case. -/
theorem upper_of_mem {c : Char} (h : c ∈ upperDigits) : upper [c] = [c] ∧ (hexDigit? c).isSome = true := by
  have hall : upperDigits.all (fun c => upper [c] = [c] ∧ (hexDigit? c).isSome = true) = true := by
    decide
  exact of_decide_eq_true (List.all_eq_true.1 hall c h)

/-- A hardware address is written in upper case. -/
theorem upper_macText (mac : MacAddress) : upper (macText mac).toList = (macText mac).toList := by
  calc upper (macText mac).toList
      = (macText mac).toList.flatMap fun c => upper [c] := by simp [upper]
    _ = (macText mac).toList.flatMap fun c => [c] :=
        List.flatMap_congr fun c hc => (upper_of_mem (mem_macText hc)).1
    _ = (macText mac).toList := by simp

/-! ### Names -/

/-- The instance in a full name has lost the dots at its end. -/
theorem instanceOf_fullName (inst : String) :
    instanceOf (fullName inst) = String.ofList (trimEndOf '.' inst.toList) := by
  have hfull : (fullName inst).toList = (inst.toList ++ ['.']) ++ serviceType.toList := by
    simp [fullName]
  have htype : serviceType.toList.isSuffixOf (fullName inst).toList = true := by
    rw [List.isSuffixOf_iff_suffix, hfull]
    exact List.suffix_append _ _
  rw [instanceOf, if_pos htype, hfull, List.length_append, Nat.add_sub_cancel,
    List.take_left, trimEndOf_concat]

/-- The dots are those of the name. -/
theorem instanceOf_instanceName (mac : MacAddress) (name : String) :
    instanceOf (fullName (instanceName mac name)) =
      String.ofList ((macText mac).toList ++ '@' :: trimEndOf '.' name.toList) := by
  have hinst : (instanceName mac name).toList = (macText mac).toList ++ '@' :: name.toList := by
    simp [instanceName]
  rw [instanceOf_fullName, hinst, trimEndOf_append_cons (by decide)]

/-- Digits of a hardware address and a name, whatever is in it, are told apart. -/
theorem parseInstance?_digits (mac : MacAddress) (name : List Char) :
    parseInstance? (String.ofList ((macText mac).toList ++ '@' :: name)) =
      some (macText mac, String.ofList name) := by
  have hat : '@' ∉ (macText mac).toList := fun hmem => absurd (mem_macText hmem) (by decide)
  have hall : (macText mac).toList.length = 12 ∧
      (macText mac).toList.all (fun c => (hexDigit? c).isSome) = true :=
    ⟨length_macText mac, List.all_eq_true.2 fun c hc => (upper_of_mem (mem_macText hc)).2⟩
  rw [parseInstance?, String.toList_ofList, splitAt?_append _ hat, Option.bind_eq_bind, Option.bind_some]
  simp only [upper_macText, if_pos hall, String.ofList_toList, Option.pure_def]

/-- What is found under an announced name. -/
theorem parseInstance?_instanceOf (mac : MacAddress) (name : String) :
    parseInstance? (instanceOf (fullName (instanceName mac name))) =
      some (macText mac, String.ofList (trimEndOf '.' name.toList)) := by
  rw [instanceOf_instanceName, parseInstance?_digits]

/-- **An announced name is found as it was exactly if it does not end with a dot**; otherwise the dots
at its end are gone. The address is found as its twelve digits. -/
theorem found_iff (mac : MacAddress) (name : String) :
    (macText mac).toList = mac.toList.flatMap octetDigits ∧ (macText mac).toList.length = 12 ∧
    (∃ found : String, Trailed '.' name.toList found.toList ∧
      parseInstance? (instanceOf (fullName (instanceName mac name))) = some (macText mac, found)) ∧
    (parseInstance? (instanceOf (fullName (instanceName mac name))) = some (macText mac, name) ↔
      name.toList.getLast? ≠ some '.') := by
  refine ⟨toList_macText mac, length_macText mac, ⟨_, ?_, parseInstance?_instanceOf mac name⟩, ?_⟩
  · rw [String.toList_ofList]
    exact trimEndOf_eq_iff.1 rfl
  · rw [parseInstance?_instanceOf, ← trimEndOf_eq_self_iff, Option.some.injEq, Prod.mk.injEq,
      and_iff_right rfl, ← String.toList_inj, String.toList_ofList]

/-- Of a name that ends with a dot the dot is not found. -/
theorem found_without_dot :
    fullName (instanceName #v[0x00, 0x11, 0x22, 0x33, 0x44, 0x55] "Den.") =
        "001122334455@Den.._raop._tcp.local." ∧
      parseInstance? (instanceOf "001122334455@Den.._raop._tcp.local.") =
        some ("001122334455", "Den") := by
  decide

/-- The peer that is found of a receiver that was announced has its name, without the dots at its end. -/
theorem DiscoveredPeer.name_of_announced {d : Daemon} {a a' : Advertiser} {calls : List DaemonCall}
    {full : String} {own addresses : List IpAddress} {port : UInt16} {p : DiscoveredPeer}
    (ha : a.register d = (.ok (), a', calls)) (hfull : a'.registered = some full)
    (hp : DiscoveredPeer.ofService? own full addresses port = some p) :
    Trailed '.' a.name.toList p.name.toList := by
  have hname : full = fullName (instanceName a.mac a.name) := by
    unfold Advertiser.register at ha
    split at ha
    · cases ha
    · simp only at ha
      split at ha
      · cases ha
      · obtain ⟨-, rfl, -⟩ := Prod.mk.inj ha |>.imp_right Prod.mk.inj
        exact (Option.some.inj hfull).symm
  unfold DiscoveredPeer.ofService? at hp
  split at hp
  · cases hp
  · obtain ⟨address, -, rfl⟩ := Option.map_eq_some_iff.1 hp
    simp only [hname, parseInstance?_instanceOf, Option.map_some, Option.getD_some, String.toList_ofList]
    exact trimEndOf_eq_iff.1 rfl

end Discovery
end Raop
