/-
# Losses in numbers without bound

A sequence number is a packet's number modulo 2^16. As long as no packet is more
than 1000 above the highest number so far, or more than 32767 below it, what the
tracker tells is right of the numbers themselves, through any number of wraps:
its gaps are disjoint and hold what was skipped, and it counts what was lost and
what was late.

The numbers that are missing grow with a packet by all between the highest number
and its own (`missing_append`), and the gap that is reported with it stands for
the same (`step_record`).

Key definitions: `Gap.numbers`, `SequenceTracker.follow`, `SequenceTracker.Arrival`,
`SequenceTracker.InReach`, `SequenceTracker.missing`, `SequenceTracker.Accounts`.
Key theorems: `Gap.numbers_eq_Ico`, `SequenceTracker.missing_append`, `SequenceTracker.step_record`,
`SequenceTracker.Accounts.step`, `SequenceTracker.accounts_of_inReach`.
-/
import Mathlib.Order.Interval.Finset.Basic
import Mathlib.Data.Int.Interval
import Mathlib.Tactic
import Raop.SequenceTracker

namespace Raop

/-! ### Sequence numbers of numbers -/

theorem UInt16.toNat_ofInt (x : Int) : ((UInt16.ofInt x).toNat : Int) = x % 65536 := by
  have hmod : 0 ≤ x % 65536 ∧ x % 65536 < 65536 := by omega
  simp only [UInt16.ofInt, UInt16.toNat_ofNat']
  omega

theorem UInt16.ofInt_sub (x y : Int) : UInt16.ofInt (x - y) = UInt16.ofInt x - UInt16.ofInt y := by
  have hx := UInt16.toNat_ofInt x
  have hy := UInt16.toNat_ofInt y
  have hxy := UInt16.toNat_ofInt (x - y)
  apply UInt16.toNat_inj.1
  rw [UInt16.toNat_sub]
  omega

/-- The numbers that a gap stands for which is reported with the packet `n`: for each sequence number in
the gap, the highest number below `n` that has it. -/
noncomputable def Gap.numbers (g : Gap) (n : Int) : Finset Int :=
  (Finset.Ico (n - 65536) n).filter fun x => UInt16.ofInt x - g.start < g.count

/-- A gap that begins with the sequence number of `a` and ends in front of `n` is all from `a` on. -/
theorem Gap.numbers_eq_Ico {a n : Int} (hle : a ≤ n) (hlt : n < a + 65536) :
    Gap.numbers ⟨UInt16.ofInt a, UInt16.ofInt (n - a)⟩ n = Finset.Ico a n := by
  ext x
  have hcount := UInt16.toNat_ofInt (n - a)
  have hoffset := UInt16.toNat_ofInt (x - a)
  simp only [numbers, Finset.mem_filter, Finset.mem_Ico, ← UInt16.ofInt_sub, UInt16.lt_iff_toNat_lt]
  omega

namespace SequenceTracker

/-! ### Arrivals -/

/-- A packet that arrives: its number, and the numbers that came before it, but for the first one. -/
structure Arrival where
  before : List Int
  number : Int

/-- The packets after the first one as they arrive. -/
def arrivals (before : List Int) : List Int → List Arrival
  | [] => []
  | n :: ns => ⟨before, n⟩ :: arrivals (before ++ [n]) ns

/-- The highest of a first number and others. -/
def highest (first : Int) (ns : List Int) : Int := ns.foldl max first

/-- Each packet is at most 1000 above and 32767 below the highest number before it. -/
def InReach (first : Int) (ns : List Int) : Prop :=
  ∀ a ∈ arrivals [] ns,
    highest first a.before - 32767 ≤ a.number ∧ a.number ≤ highest first a.before + 1000

instance (first : Int) (ns : List Int) : Decidable (InReach first ns) :=
  inferInstanceAs (Decidable (∀ a ∈ arrivals [] ns, _))

/-- A packet takes the highest number past `x`, which had not come. -/
def Arrival.Skips (first : Int) (a : Arrival) (x : Int) : Prop :=
  highest first a.before ≤ x ∧ x < a.number ∧ x ∉ first :: a.before

instance (first : Int) (a : Arrival) (x : Int) : Decidable (a.Skips first x) :=
  inferInstanceAs (Decidable (_ ∧ _))

/-- The numbers between the first and the highest one that had not come when the highest number passed
them. -/
noncomputable def missing (first : Int) (ns : List Int) : Finset Int :=
  (Finset.Ioo first (highest first ns)).filter fun x => ∃ a ∈ arrivals [] ns, a.Skips first x

/-- The packets that are not above the highest number before them. -/
def lateArrivals (first : Int) (ns : List Int) : List Arrival :=
  (arrivals [] ns).filter fun a => a.number ≤ highest first a.before

variable {first n x : Int} {ns : List Int}

theorem arrivals_append_singleton : ∀ (before ns : List Int) (n : Int),
    arrivals before (ns ++ [n]) = arrivals before ns ++ [⟨before ++ ns, n⟩]
  | before, [], n => by simp [arrivals]
  | before, m :: ns, n => by
    simp [arrivals, arrivals_append_singleton (before ++ [m]) ns n]

theorem highest_append_singleton (first : Int) (ns : List Int) (n : Int) :
    highest first (ns ++ [n]) = max (highest first ns) n := by
  simp [highest]

theorem first_le_highest (first : Int) (ns : List Int) : first ≤ highest first ns := by
  induction ns using List.reverseRecOn with
  | nil => exact le_refl first
  | append_singleton ns n ih =>
    rw [highest_append_singleton]
    exact le_max_of_le_left ih

theorem le_highest_of_mem (h : x ∈ first :: ns) : x ≤ highest first ns := by
  induction ns using List.reverseRecOn with
  | nil => simpa [highest] using (List.mem_singleton.1 h).le
  | append_singleton ns n ih =>
    rw [← List.cons_append, List.mem_append, List.mem_singleton] at h
    rw [highest_append_singleton]
    rcases h with h | rfl
    · exact le_max_of_le_left (ih h)
    · exact le_max_right _ _

theorem highest_mem (first : Int) (ns : List Int) : highest first ns ∈ first :: ns := by
  induction ns using List.reverseRecOn with
  | nil => exact List.mem_singleton_self first
  | append_singleton ns n ih =>
    rw [highest_append_singleton, ← List.cons_append, List.mem_append, List.mem_singleton]
    rcases max_choice (highest first ns) n with h | h
    · rw [h]
      exact Or.inl ih
    · exact Or.inr h

/-- Of all that came before, what a new packet skips is above the highest number. -/
theorem skips_iff (first : Int) (ns : List Int) (n x : Int) :
    Arrival.Skips first ⟨ns, n⟩ x ↔ highest first ns < x ∧ x < n := by
  constructor
  · rintro ⟨hle, hlt, hnew⟩
    refine ⟨lt_of_le_of_ne hle ?_, hlt⟩
    rintro rfl
    exact hnew (highest_mem first ns)
  · rintro ⟨hgt, hlt⟩
    exact ⟨hgt.le, hlt, fun hmem => (le_highest_of_mem hmem).not_gt hgt⟩

theorem inReach_append_singleton : InReach first (ns ++ [n]) ↔
    InReach first ns ∧ highest first ns - 32767 ≤ n ∧ n ≤ highest first ns + 1000 := by
  simp only [InReach, arrivals_append_singleton, List.forall_mem_append, List.forall_mem_singleton,
    List.nil_append]

theorem number_le_highest {a : Arrival} (h : a ∈ arrivals [] ns) : a.number ≤ highest first ns := by
  induction ns using List.reverseRecOn with
  | nil => cases h
  | append_singleton ns n ih =>
    rw [arrivals_append_singleton, List.mem_append, List.mem_singleton] at h
    rw [highest_append_singleton]
    rcases h with h | rfl
    · exact le_max_of_le_left (ih h)
    · exact le_max_right _ _

theorem lt_highest_of_mem_missing (h : x ∈ missing first ns) : x < highest first ns :=
  (Finset.mem_Ioo.1 (Finset.mem_filter.1 h).1).2

/-- A packet skips all between the highest number and its own, if that is higher. -/
theorem missing_append (first n : Int) (ns : List Int) :
    missing first (ns ++ [n]) = missing first ns ∪ Finset.Ico (highest first ns + 1) n := by
  have hfirst := first_le_highest first ns
  ext x
  -- what was skipped before lies below the highest number
  have hbelow : (∃ a ∈ arrivals [] ns, a.Skips first x) → x < highest first ns :=
    fun ⟨a, ha, hskips⟩ => hskips.2.1.trans_le (number_le_highest ha)
  simp only [missing, highest_append_singleton, arrivals_append_singleton, List.nil_append,
    List.mem_append, List.mem_singleton, or_and_right, exists_or, exists_eq_left, skips_iff,
    Finset.mem_filter, Finset.mem_Ioo, Finset.mem_union, Finset.mem_Ico, lt_max_iff]
  constructor
  · rintro ⟨⟨hgt, -⟩, hskipped | hskips⟩
    · exact Or.inl ⟨⟨hgt, hbelow hskipped⟩, hskipped⟩
    · exact Or.inr (by omega)
  · rintro (⟨⟨hgt, hlt⟩, hskipped⟩ | hbetween)
    · exact ⟨⟨hgt, Or.inl hlt⟩, Or.inl hskipped⟩
    · exact ⟨by omega, Or.inr (by omega)⟩

theorem disjoint_missing (first n : Int) (ns : List Int) :
    Disjoint (missing first ns) (Finset.Ico (highest first ns + 1) n) := by
  refine Finset.disjoint_left.2 fun x hx hx' => ?_
  have hlt := lt_highest_of_mem_missing hx
  rw [Finset.mem_Ico] at hx'
  omega

theorem length_lateArrivals_append (first n : Int) (ns : List Int) :
    (lateArrivals first (ns ++ [n])).length =
      (lateArrivals first ns).length + if n ≤ highest first ns then 1 else 0 := by
  rw [lateArrivals, arrivals_append_singleton, List.filter_append, List.length_append, ← lateArrivals,
    List.nil_append]
  by_cases hle : n ≤ highest first ns <;> simp [hle]

/-! ### The tracker -/

variable {t : SequenceTracker} {top : Int} {gaps : List (Finset Int)}

/-- What a tracker that expects the number above `top` tells of a packet, and the numbers of the gap that it
reports with it. -/
structure Step (top n : Int) (t t' : SequenceTracker) (reported : List (Finset Int)) : Prop where
  expected : t'.expected = some (UInt16.ofInt (max top n + 1))
  reported : reported = if n ≤ top + 1 then [] else [Finset.Ico (top + 1) n]
  lost : t'.lost = t.lost + (Finset.Ico (top + 1) n).card
  late : t'.late = t.late + if n ≤ top then 1 else 0
  received : t'.received = t.received + 1

/-- A packet that is not above the highest number is late. -/
theorem record_of_le (hexpected : t.expected = some (UInt16.ofInt (top + 1)))
    (hreach : top - 32767 ≤ n) (hle : n ≤ top) :
    t.record (UInt16.ofInt n) =
      ({ t with received := t.received + 1, late := t.late + 1 }, none) := by
  have hahead := UInt16.toNat_ofInt (n - (top + 1))
  have hlate : 0x8000 ≤ UInt16.ofInt n - UInt16.ofInt (top + 1) := by
    rw [← UInt16.ofInt_sub, UInt16.le_iff_toNat_le]
    simp only [UInt16.reduceToNat]
    omega
  simp only [record, hexpected, hlate, if_true]

/-- A packet above the highest number is expected or has a gap in front of it. -/
theorem record_of_lt (hexpected : t.expected = some (UInt16.ofInt (top + 1))) (hlt : top < n)
    (hreach : n ≤ top + 1000) :
    t.record (UInt16.ofInt n) =
      if n = top + 1 then
        ({ t with received := t.received + 1, expected := some (UInt16.ofInt (n + 1)) }, none)
      else
        ({ t with
            received := t.received + 1, expected := some (UInt16.ofInt (n + 1))
            gaps := t.gaps + 1, lost := t.lost + (n - (top + 1)).toNat },
          some ⟨UInt16.ofInt (top + 1), UInt16.ofInt (n - (top + 1))⟩) := by
  have hahead := UInt16.toNat_ofInt (n - (top + 1))
  have hcount : (UInt16.ofInt (n - (top + 1))).toNat = (n - (top + 1)).toNat := by omega
  have hnew : ¬ 0x8000 ≤ UInt16.ofInt (n - (top + 1)) := by
    rw [UInt16.le_iff_toNat_le]
    simp only [UInt16.reduceToNat]
    omega
  have hgap : (0 < UInt16.ofInt (n - (top + 1)) ∧ UInt16.ofInt (n - (top + 1)) < maxGap) ↔
      n ≠ top + 1 := by
    simp only [UInt16.lt_iff_toNat_lt, hcount, maxGap, UInt16.reduceToNat]
    omega
  have hnext : UInt16.ofInt n + 1 = UInt16.ofInt (n + 1) := (UInt16.ofInt_add n 1).symm
  simp only [record, hexpected, ← UInt16.ofInt_sub, hnew, if_false, hnext, hcount, hgap, ite_not]

/-- **A packet in reach.** -/
theorem step_record (hexpected : t.expected = some (UInt16.ofInt (top + 1)))
    (hbehind : top - 32767 ≤ n) (hahead : n ≤ top + 1000) :
    Step top n t (t.record (UInt16.ofInt n)).1
      ((t.record (UInt16.ofInt n)).2.map fun g => g.numbers n).toList := by
  rcases lt_trichotomy n (top + 1) with hlt | heq | hgt
  · have hle : n ≤ top := by omega
    rw [record_of_le hexpected hbehind hle]
    exact {
      expected := by rw [max_eq_left hle, hexpected]
      reported := by rw [if_pos hlt.le]; rfl
      lost := by rw [Finset.Ico_eq_empty_of_le hlt.le]; rfl
      late := by rw [if_pos hle]
      received := rfl }
  · rw [record_of_lt hexpected (by omega) hahead, if_pos heq]
    exact {
      expected := by rw [max_eq_right (by omega)]
      reported := by rw [if_pos heq.le]; rfl
      lost := by rw [Finset.Ico_eq_empty_of_le heq.le]; rfl
      late := by rw [if_neg (by omega)]; rfl
      received := rfl }
  · rw [record_of_lt hexpected (by omega) hahead, if_neg hgt.ne']
    have hnumbers := Gap.numbers_eq_Ico hgt.le (by omega)
    exact {
      expected := by rw [max_eq_right (by omega)]
      reported := by rw [if_neg hgt.not_ge, Option.map_some, hnumbers]; rfl
      lost := by rw [Int.card_Ico]
      late := by rw [if_neg (by omega)]; rfl
      received := rfl }

/-- A tracker after packets of these numbers, and the numbers of the gaps that it reported. -/
noncomputable def follow (ns : List Int) : SequenceTracker × List (Finset Int) :=
  ns.foldl (fun (t, gaps) n =>
    let (t, gap) := t.record (UInt16.ofInt n)
    (t, gaps ++ (gap.map fun g => g.numbers n).toList)) ({}, [])

/-- A tracker expects the number above the highest one, and has told what is so of the numbers. -/
structure Accounts (first : Int) (ns : List Int) (t : SequenceTracker) (gaps : List (Finset Int)) :
    Prop where
  expected : t.expected = some (UInt16.ofInt (highest first ns + 1))
  disjoint : gaps.Pairwise Disjoint
  union : ∀ x, (∃ gap ∈ gaps, x ∈ gap) ↔ x ∈ missing first ns
  lost : t.lost = (missing first ns).card
  late : t.late = (lateArrivals first ns).length
  received : t.received = (first :: ns).length

theorem accounts_first (first : Int) :
    Accounts first [] (follow [first]).1 (follow [first]).2 where
  expected := congrArg some (UInt16.ofInt_add first 1).symm
  disjoint := List.Pairwise.nil
  union x := by simp [follow, record, missing, arrivals]
  lost := by simp [follow, record, missing, arrivals]
  late := rfl
  received := rfl

/-- What is told of a packet goes with what was told before it. -/
theorem Accounts.step {t' : SequenceTracker} {reported : List (Finset Int)}
    (h : Accounts first ns t gaps) (hstep : Step (highest first ns) n t t' reported) :
    Accounts first (ns ++ [n]) t' (gaps ++ reported) where
  expected := by rw [hstep.expected, highest_append_singleton]
  disjoint := by
    refine List.pairwise_append.2 ⟨h.disjoint, ?_, fun gap hgap new hnew => ?_⟩
    · rw [hstep.reported]
      split
      · exact List.Pairwise.nil
      · exact List.pairwise_singleton _ _
    · rw [hstep.reported] at hnew
      split at hnew
      · cases hnew
      · rw [List.mem_singleton.1 hnew]
        exact (disjoint_missing first n ns).mono_left fun x hx => (h.union x).1 ⟨gap, hgap, hx⟩
  union x := by
    have hreported : (∃ gap ∈ reported, x ∈ gap) ↔ x ∈ Finset.Ico (highest first ns + 1) n := by
      rw [hstep.reported]
      split
      · next hle => simp [Finset.Ico_eq_empty_of_le hle]
      · simp only [List.mem_singleton, exists_eq_left]
    simp only [missing_append, Finset.mem_union, List.mem_append, or_and_right, exists_or, h.union x,
      hreported]
  lost := by
    rw [hstep.lost, missing_append, Finset.card_union_of_disjoint (disjoint_missing first n ns), h.lost]
  late := by rw [hstep.late, length_lateArrivals_append, h.late]
  received := by simp [hstep.received, h.received]

theorem follow_append_singleton (ns : List Int) (n : Int) :
    follow (ns ++ [n]) = (((follow ns).1.record (UInt16.ofInt n)).1,
      (follow ns).2 ++
        (((follow ns).1.record (UInt16.ofInt n)).2.map fun g => g.numbers n).toList) := by
  simp [follow]

/-- **What a tracker tells of packets in reach.** -/
theorem accounts_of_inReach (first : Int) (ns : List Int) (h : InReach first ns) :
    Accounts first ns (follow (first :: ns)).1 (follow (first :: ns)).2 := by
  induction ns using List.reverseRecOn with
  | nil => exact accounts_first first
  | append_singleton ns n ih =>
    obtain ⟨hbefore, hbehind, hahead⟩ := inReach_append_singleton.1 h
    rw [← List.cons_append, follow_append_singleton]
    have haccounts := ih hbefore
    exact haccounts.step (step_record haccounts.expected hbehind hahead)

/-- Sequence numbers that wrap: five packets are skipped, of which one comes late, a packet comes twice,
and the last one is as far behind as can be. -/
def wrapping : List Int := [65538, 65536, 65538, 65541, 32774]

theorem accounts_wrapping :
    InReach 65534 wrapping ∧ (follow (65534 :: wrapping)).1.lost = 5 ∧
      (follow (65534 :: wrapping)).1.late = 3 := by
  have hreach : InReach 65534 wrapping := by decide
  have haccounts := accounts_of_inReach 65534 wrapping hreach
  refine ⟨hreach, ?_, ?_⟩
  · rw [haccounts.lost]
    decide +kernel
  · rw [haccounts.late]
    decide +kernel

end SequenceTracker
end Raop
