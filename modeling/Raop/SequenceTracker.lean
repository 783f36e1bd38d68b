/-
# Lost and late packets

Sequence numbers count packets modulo 2^16. A number ahead of the expected one
by less than half the range is new; if it skips fewer than a limit, the numbers
skipped are lost. Any other number is late.

Key definitions: `SequenceTracker`, `SequenceTracker.record`, `Gap`.
-/
namespace Raop

/-- A run of sequence numbers that were skipped. -/
structure Gap where
  start : UInt16
  count : UInt16
  deriving DecidableEq, Repr, Inhabited

/-- The number expected next, and what was counted. -/
structure SequenceTracker where
  expected : Option UInt16 := none
  received : Nat := 0
  gaps : Nat := 0
  lost : Nat := 0
  late : Nat := 0
  deriving DecidableEq, Repr, Inhabited

namespace SequenceTracker

/-- A jump of this many numbers or more is no gap but a new start. -/
def maxGap : UInt16 := 1000

/-- A packet arrived; a gap in front of it is reported. -/
def record (t : SequenceTracker) (sequence : UInt16) : SequenceTracker × Option Gap :=
  let t := { t with received := t.received + 1 }
  match t.expected with
  | none => ({ t with expected := some (sequence + 1) }, none)
  | some expected =>
    let ahead := sequence - expected
    if 0x8000 ≤ ahead then ({ t with late := t.late + 1 }, none)
    else
      let t := { t with expected := some (sequence + 1) }
      if 0 < ahead ∧ ahead < maxGap then
        ({ t with gaps := t.gaps + 1, lost := t.lost + ahead.toNat },
          some { start := expected, count := ahead })
      else (t, none)

/-- The share of lost packets among those that should have come. -/
def lossRatio (t : SequenceTracker) : Float :=
  if t.received = 0 then 0
  else (UInt64.ofNat t.lost).toFloat / (UInt64.ofNat (t.received + t.lost)).toFloat

end SequenceTracker
end Raop
