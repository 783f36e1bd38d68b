/-
# How well clocks are compared

An instant is rounded down twice on its way to microseconds, to a binary
fraction and then to whole microseconds, and loses less than 1001 nanoseconds
by it (`micros_ofUnix`). So the difference of the times of two instants is right
to a microsecond, but for the eras: the seconds wrap at the end of an era, and
each era between the instants is missing from the difference
(`diff_of_instants`).

The four times of a timing exchange give the offset of the responder's clock and
the time spent on the way. The time on the way is exact, and the offset is wrong
by half of it at most; nothing that is computed on the way to either leaves a
signed 64-bit word (`estimate_within`).

Key definitions: `NtpTime.era`, `word?`, `NtpTime.diff?`, `TimingPacket.clockOffset?`,
`TimingPacket.roundTrip?`, `TimingPacket.Travels`.
Key theorems: `NtpTime.micros_ofUnix`, `NtpTime.diff_of_instants`, `NtpTime.diff?_eq`,
`TimingPacket.estimate_within`.
-/
import Mathlib.Algebra.Order.Ring.Abs
import Mathlib.Algebra.Order.Ring.Int
import Mathlib.Tactic.Linarith
import Mathlib.Tactic.Ring
import Raop.Datagram.Timing
import Raop.Duration

namespace Raop

namespace NtpTime

/-! ### Instants -/

/-- Seconds in an era. -/
def eraSeconds : Nat := 4294967296

/-- The era of an instant after 1970: how often the seconds have wrapped by then. -/
def era (instant : Duration) : Nat :=
  (instant.toNanos / Duration.perSecond + unixEpoch) / eraSeconds

/-- A part of a second becomes a binary fraction, and that becomes microseconds: both are rounded
down, and less than 1001 nanoseconds are lost. -/
theorem micros_of_nanos {nanos : Nat} (h : nanos < 1000000000) :
    nanos * 4294967296 / 1000000000 < 4294967296 ∧
      1000 * (nanos * 4294967296 / 1000000000 * 1000000 / 4294967296) ≤ nanos ∧
      nanos ≤ 1000 * (nanos * 4294967296 / 1000000000 * 1000000 / 4294967296) + 1000 := by
  omega

/-- The microseconds of an instant since 1900 are those of its time and of the eras before. -/
theorem micros_ofUnix (a : Duration) :
    let since := a.toNanos + unixEpoch * Duration.perSecond
    let told := (ofUnix a.secs a.nanos).micros + era a * eraSeconds * 1000000
    1000 * told ≤ since ∧ since ≤ 1000 * told + 1000 := by
  -- the nanoseconds may hold whole seconds
  have hcarried : a.toNanos / 1000000000 = a.secs + a.nanos / 1000000000 ∧
      a.toNanos % 1000000000 = a.nanos % 1000000000 := by
    simp only [Duration.toNanos, Duration.perSecond]
    omega
  obtain ⟨hsecs, hnanos⟩ := hcarried
  have hpart := micros_of_nanos (Nat.mod_lt a.toNanos (by decide : 1000000000 > 0))
  simp only [micros, ofUnix, era, eraSeconds, Duration.perSecond, unixEpoch, ← hsecs, ← hnanos,
    UInt32.toNat_ofNat', Nat.reducePow, Nat.mod_eq_of_lt hpart.1]
  omega

/-- **The difference of the times of two instants**: with the eras between the instants it is within a
microsecond of the time between them. So it is within two microseconds by itself just if the instants
are of one era. -/
theorem diff_of_instants (a b : Duration) :
    let diff := (ofUnix a.secs a.nanos).diff (ofUnix b.secs b.nanos)
    |1000 * (diff + (era a - era b) * eraSeconds * 1000000) - (a.toNanos - b.toNanos : Int)| ≤ 1000 ∧
      (|1000 * diff - (a.toNanos - b.toNanos : Int)| < 2 * 1000 ↔ era a = era b) := by
  have ha := micros_ofUnix a
  have hb := micros_ofUnix b
  simp only [diff, eraSeconds] at ha hb ⊢
  rw [abs_le, abs_lt]
  omega

/-- The last second of the first era, in 2036. -/
def lastSecond : Duration := ⟨2085978495, 0⟩

/-- The first second of the second era. -/
def firstSecond : Duration := ⟨2085978496, 0⟩

/-- From the last second of an era to the first one of the next it is no second, but an era less one
second backwards. -/
theorem diff_across_eras :
    firstSecond.secs < 4102444800 ∧ firstSecond.secs - lastSecond.secs < 2147483648 ∧
      (ofUnix firstSecond.secs firstSecond.nanos).diff (ofUnix lastSecond.secs lastSecond.nanos) =
        -4294967295000000 ∧
      ¬ |1000 * (ofUnix firstSecond.secs firstSecond.nanos).diff
          (ofUnix lastSecond.secs lastSecond.nanos) -
        (firstSecond.toNanos - lastSecond.toNanos : Int)| < 2 * 1000 := by
  decide

end NtpTime

/-! ### In words -/

/-- A number that a signed 64-bit word holds. -/
def word? (n : Int) : Option Int :=
  if -9223372036854775808 ≤ n ∧ n < 9223372036854775808 then some n else none

theorem word?_eq_some {n : Int} (h : -9223372036854775808 ≤ n ∧ n < 9223372036854775808) :
    word? n = some n := if_pos h

namespace NtpTime

/-- Microseconds since the start of the era, every step in a word. -/
def micros? (t : NtpTime) : Option Int := do
  let whole ← word? (t.seconds.toNat * 1000000)
  let scaled ← word? (t.fraction.toNat * 1000000)
  let part ← word? (scaled / 4294967296)
  word? (whole + part)

/-- Microseconds from `b` to `a`, every step in a word. -/
def diff? (a b : NtpTime) : Option Int := do
  let first ← a.micros?
  let second ← b.micros?
  word? (first - second)

theorem micros?_eq (t : NtpTime) : t.micros? = some (t.micros : Int) := by
  have hseconds := t.seconds.toNat_lt
  have hfraction := t.fraction.toNat_lt
  rw [micros?, Option.bind_eq_bind, word?_eq_some (by omega), Option.bind_some,
    word?_eq_some (by omega), Option.bind_some, word?_eq_some (by omega), Option.bind_some,
    word?_eq_some (by omega), micros]
  push_cast
  rfl

/-- A difference of two times is less than an era. -/
theorem abs_diff_lt (a b : NtpTime) : |a.diff b| < 4294967296 * 1000000 := by
  have ha := a.micros_lt
  have hb := b.micros_lt
  rw [abs_lt, diff]
  omega

theorem diff?_eq (a b : NtpTime) : a.diff? b = some (a.diff b) := by
  have hlt := abs_lt.1 (abs_diff_lt a b)
  rw [diff] at hlt ⊢
  rw [diff?, Option.bind_eq_bind, micros?_eq, micros?_eq, Option.bind_some, Option.bind_some,
    word?_eq_some (by omega)]

end NtpTime

/-! ### Estimates -/

/-- Half of a number, rounded toward zero, is off by half of one at most. -/
theorem abs_two_mul_tdiv_sub_le (s : Int) : |2 * s.tdiv 2 - s| ≤ 1 := by
  have hparts := Int.tmod_add_mul_tdiv s 2
  have hlt := Int.tmod_lt_of_pos s (by decide : (0 : Int) < 2)
  have hgt := Int.lt_tmod_of_pos s (by decide : (0 : Int) < 2)
  rw [abs_le]
  omega

namespace TimingPacket

/-- The offset of the clocks, every step in a word. -/
def clockOffset? (p : TimingPacket) (arrival : NtpTime) : Option Int := do
  let there ← p.receive.diff? p.reference
  let back ← p.send.diff? arrival
  let sum ← word? (there + back)
  word? (sum.tdiv 2)

/-- The time spent on the way, every step in a word. -/
def roundTrip? (p : TimingPacket) (arrival : NtpTime) : Option Int := do
  let whole ← arrival.diff? p.reference
  let inside ← p.send.diff? p.receive
  word? (whole - inside)

theorem clockOffset?_eq (p : TimingPacket) (arrival : NtpTime) :
    p.clockOffset? arrival = some (p.clockOffset arrival) := by
  have hthere := abs_lt.1 (NtpTime.abs_diff_lt p.receive p.reference)
  have hback := abs_lt.1 (NtpTime.abs_diff_lt p.send arrival)
  have hhalf := abs_le.1 (abs_two_mul_tdiv_sub_le (p.receive.diff p.reference + p.send.diff arrival))
  rw [clockOffset?, Option.bind_eq_bind, NtpTime.diff?_eq, NtpTime.diff?_eq, Option.bind_some,
    Option.bind_some, word?_eq_some (by omega), Option.bind_some, word?_eq_some (by omega), clockOffset]

theorem roundTrip?_eq (p : TimingPacket) (arrival : NtpTime) :
    p.roundTrip? arrival = some (p.roundTrip arrival) := by
  have hwhole := abs_lt.1 (NtpTime.abs_diff_lt arrival p.reference)
  have hinside := abs_lt.1 (NtpTime.abs_diff_lt p.send p.receive)
  rw [roundTrip?, Option.bind_eq_bind, NtpTime.diff?_eq, NtpTime.diff?_eq, Option.bind_some,
    Option.bind_some, word?_eq_some (by omega), roundTrip]

variable {K : Type*} [CommRing K] [LinearOrder K] [IsStrictOrderedRing K]

/-- An exchange in which the responder's clock is ahead by `offset`, and which was `there` and `back`
on the way. -/
structure Travels (p : TimingPacket) (arrival : NtpTime) (offset there back : K) : Prop where
  there_nonneg : 0 ≤ there
  back_nonneg : 0 ≤ back
  receive_eq : (p.receive.micros : K) = p.reference.micros + offset + there
  arrival_eq : (arrival.micros : K) = p.send.micros - offset + back

variable {p : TimingPacket} {arrival : NtpTime} {offset there back : K}

omit [IsStrictOrderedRing K] in
theorem Travels.roundTrip_eq (h : p.Travels arrival offset there back) :
    (p.roundTrip arrival : K) = there + back := by
  rw [roundTrip, NtpTime.diff, NtpTime.diff]
  push_cast
  rw [h.receive_eq, h.arrival_eq]
  ring

/-- The estimate is half the difference of the two ways beside the offset, and rounded. -/
theorem Travels.abs_clockOffset_sub_le (h : p.Travels arrival offset there back) :
    2 * |(p.clockOffset arrival : K) - offset| ≤ |there - back| + 1 := by
  have hsum : ((p.receive.diff p.reference + p.send.diff arrival : Int) : K) =
      2 * offset + (there - back) := by
    rw [NtpTime.diff, NtpTime.diff]
    push_cast
    rw [h.receive_eq, h.arrival_eq]
    ring
  have hround : |2 * (p.clockOffset arrival : K) - (2 * offset + (there - back))| ≤ 1 := by
    rw [← hsum, clockOffset]
    exact_mod_cast abs_two_mul_tdiv_sub_le (p.receive.diff p.reference + p.send.diff arrival)
  calc 2 * |(p.clockOffset arrival : K) - offset|
      = |2 * ((p.clockOffset arrival : K) - offset)| := by rw [abs_mul, abs_two]
    _ = |(there - back) + (2 * (p.clockOffset arrival : K) - (2 * offset + (there - back)))| := by
        congr 1
        ring
    _ ≤ |there - back| + |2 * (p.clockOffset arrival : K) - (2 * offset + (there - back))| :=
        abs_add_le _ _
    _ ≤ |there - back| + 1 := by gcongr

variable (p arrival) in
/-- **What the times of an exchange tell.** Whatever the offset of the clocks and however long the two
ways took, the time on the way is what both took together, and the offset is estimated to half of that
and half a microsecond. For any times at all, every step of both computations stays in a signed 64-bit
word, and ends in what is told. -/
theorem estimate_within :
    (∀ offset there back : K, p.Travels arrival offset there back →
      (p.roundTrip arrival : K) = there + back ∧
        2 * |(p.clockOffset arrival : K) - offset| ≤ p.roundTrip arrival + 1) ∧
      p.clockOffset? arrival = some (p.clockOffset arrival) ∧
      p.roundTrip? arrival = some (p.roundTrip arrival) := by
  refine ⟨fun offset there back h => ⟨h.roundTrip_eq, ?_⟩, clockOffset?_eq p arrival,
    roundTrip?_eq p arrival⟩
  have hways : |there - back| ≤ there + back := by
    rw [abs_le]
    constructor <;> linarith [h.there_nonneg, h.back_nonneg]
  calc 2 * |(p.clockOffset arrival : K) - offset| ≤ |there - back| + 1 := h.abs_clockOffset_sub_le
    _ ≤ (there + back) + 1 := by gcongr
    _ = p.roundTrip arrival + 1 := by rw [h.roundTrip_eq]

/-- A response of a clock that is four seconds behind. It came back at 14 s, a second and a microsecond
on the way there and two seconds on the way back. -/
def slowResponse : TimingPacket :=
  { isResponse := true, sequence := 0, reference := ⟨10, 0⟩, receive := ⟨7, 4295⟩, send := ⟨8, 0⟩ }

/-- The two ways differ by 999999 microseconds, and half of that is rounded toward zero. -/
theorem estimate_within_slowResponse :
    slowResponse.Travels ⟨14, 0⟩ (-4000000 : Int) 1000001 2000000 ∧
      slowResponse.clockOffset ⟨14, 0⟩ = -4499999 ∧
      (slowResponse.roundTrip ⟨14, 0⟩ : Int) = 1000001 + 2000000 ∧
      2 * |(slowResponse.clockOffset ⟨14, 0⟩ : Int) - -4000000| ≤ slowResponse.roundTrip ⟨14, 0⟩ + 1 := by
  have htravels : slowResponse.Travels ⟨14, 0⟩ (-4000000 : Int) 1000001 2000000 :=
    ⟨by decide, by decide, by decide, by decide⟩
  exact ⟨htravels, by decide, (estimate_within (K := Int) slowResponse ⟨14, 0⟩).1 _ _ _ htravels⟩

end TimingPacket
end Raop
