/-
# NTP time

A time is 32 bits of seconds since 1900 and 32 bits of binary fraction; the
seconds wrap at the end of an era. Differences are taken in microseconds, each
time rounded down first.

Key definitions: `NtpTime`, `NtpTime.ofUnix`, `NtpTime.micros`, `NtpTime.diff`.
Key theorems: `NtpTime.ofWord_toWord`, `NtpTime.read_encode`, `NtpTime.micros_lt`.
-/
import Raop.Bytes

namespace Raop

/-- Seconds since 1900 within an era, and a binary fraction of a second. -/
structure NtpTime where
  seconds : UInt32 := 0
  fraction : UInt32 := 0
  deriving DecidableEq, Repr, Inhabited

namespace NtpTime

/-- Seconds between the start of 1900 and the start of 1970. -/
def unixEpoch : Nat := 2208988800

/-- The time that many seconds and nanoseconds after the start of 1970. -/
def ofUnix (secs nanos : Nat) : NtpTime :=
  { seconds := UInt32.ofNat (secs + nanos / 1000000000 + unixEpoch)
    fraction := UInt32.ofNat (nanos % 1000000000 * 4294967296 / 1000000000) }

/-- The time whose seconds are the high half of a word and whose fraction is the low half. -/
def ofWord (w : UInt64) : NtpTime :=
  { seconds := UInt32.ofNat (w.toNat / 4294967296), fraction := UInt32.ofNat w.toNat }

/-- Seconds and fraction in one word. -/
def toWord (t : NtpTime) : UInt64 :=
  UInt64.ofNat (t.seconds.toNat * 4294967296 + t.fraction.toNat)

/-- The eight octets of a time. -/
def encode (t : NtpTime) : Bytes := Bytes.be32 t.seconds ++ Bytes.be32 t.fraction

/-- The time at the front, with what follows it. -/
def read (bs : Bytes) : Option (NtpTime × Bytes) := do
  let (seconds, bs) ← Bytes.read32 bs
  let (fraction, bs) ← Bytes.read32 bs
  return ({ seconds, fraction }, bs)

/-- The time in the octets given, filled up with zeros. -/
def ofBytes (bs : Bytes) : NtpTime :=
  ((read (Bytes.padTo 8 bs)).map (·.1)).getD {}

/-- Microseconds since the start of the era, rounded down. -/
def micros (t : NtpTime) : Nat :=
  t.seconds.toNat * 1000000 + t.fraction.toNat * 1000000 / 4294967296

/-- Microseconds from `b` to `a`. -/
def diff (a b : NtpTime) : Int := (a.micros : Int) - (b.micros : Int)

theorem read_encode (t : NtpTime) (rest : Bytes) : read (t.encode ++ rest) = some (t, rest) := by
  simp [read, encode, Bytes.read32_be32]

theorem ofWord_toWord (t : NtpTime) : ofWord t.toWord = t := by
  have hs := t.seconds.toNat_lt
  have hf := t.fraction.toNat_lt
  cases t with
  | mk seconds fraction =>
    simp only [ofWord, toWord, mk.injEq, UInt64.toNat_ofNat']
    constructor
    · apply UInt32.toNat_inj.1
      simp only [UInt32.toNat_ofNat'] at *
      omega
    · apply UInt32.toNat_inj.1
      simp only [UInt32.toNat_ofNat'] at *
      omega

/-- Every time is less than an era, so a difference of two is far from the 64-bit bounds. -/
theorem micros_lt (t : NtpTime) : t.micros < 4294967296 * 1000000 := by
  have hs := t.seconds.toNat_lt
  have hf := t.fraction.toNat_lt
  simp only [micros]
  omega

end NtpTime
end Raop
