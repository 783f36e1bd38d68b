/-
# Rounding a quotient to the nearest integer

`roundHalfEven num den` is the integer nearest to `num / den`; a tie goes to
the even neighbour.

Key definitions: `roundHalfEven`.
Key theorems: `roundHalfEven_mul`, `two_mul_roundHalfEven_le`, `le_two_mul_roundHalfEven`.
-/
namespace Raop

/-- The integer nearest to `num / den`, the even one of two that are equally near. -/
def roundHalfEven (num den : Nat) : Nat :=
  let q := num / den
  let twice := 2 * (num % den)
  if twice < den then q
  else if den < twice then q + 1
  else q + q % 2

/-- An exact quotient is not changed. -/
theorem roundHalfEven_mul (q : Nat) {den : Nat} (h : 0 < den) :
    roundHalfEven (q * den) den = q := by
  simp [roundHalfEven, Nat.mul_div_cancel _ h, Nat.mul_mod_left, h]

/-- Rounding up goes at most half a unit. -/
theorem two_mul_roundHalfEven_le (num : Nat) {den : Nat} (h : 0 < den) :
    2 * (roundHalfEven num den * den) ≤ 2 * num + den := by
  have hd := Nat.div_add_mod num den
  have hm := Nat.mod_lt num h
  have hc : den * (num / den) = num / den * den := Nat.mul_comm _ _
  simp only [roundHalfEven]
  split
  · omega
  · split
    · rw [Nat.add_mul, Nat.one_mul]; omega
    · rw [Nat.add_mul]
      have : num / den % 2 * den ≤ den := by
        rcases Nat.mod_two_eq_zero_or_one (num / den) with h2 | h2 <;> simp [h2]
      omega

/-- Rounding down goes at most half a unit. -/
theorem le_two_mul_roundHalfEven (num : Nat) {den : Nat} (h : 0 < den) :
    2 * num ≤ 2 * (roundHalfEven num den * den) + den := by
  have hd := Nat.div_add_mod num den
  have hm := Nat.mod_lt num h
  have hc : den * (num / den) = num / den * den := Nat.mul_comm _ _
  simp only [roundHalfEven]
  split
  · omega
  · split
    · rw [Nat.add_mul, Nat.one_mul]; omega
    · rw [Nat.add_mul]; omega

end Raop
