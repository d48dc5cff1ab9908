/-! # Rounding a quotient to the nearest integer

Both directions between decimal texts and binary fractions round one exact quotient of natural
numbers, and a half always goes to the even neighbour. -/

namespace ScriptMachine.Decimal

/-- The integer nearest to `num / den`; a half goes to the even neighbour. -/
def roundDiv (num den : Nat) : Nat :=
  let quotient := num / den
  let twice := 2 * (num % den)
  if twice < den then quotient
  else if den < twice then quotient + 1
  else quotient + quotient % 2

/-- An exact quotient is its own rounding. -/
theorem roundDiv_mul_self (quotient den : Nat) (h : 0 < den) :
    roundDiv (quotient * den) den = quotient := by
  simp [roundDiv, Nat.mul_div_cancel quotient h, h]

/-- A rounded quotient is off by at most half a unit. -/
theorem roundDiv_near (num den : Nat) (h : 0 < den) :
    2 * num ≤ 2 * (roundDiv num den * den) + den ∧
      2 * (roundDiv num den * den) ≤ 2 * num + den := by
  have split_num := Nat.div_add_mod num den
  have small := Nat.mod_lt num h
  have expand : den * (num / den) = num / den * den := Nat.mul_comm _ _
  simp only [roundDiv]
  split
  · omega
  · split
    · rw [Nat.add_mul]; omega
    · rcases Nat.mod_two_eq_zero_or_one (num / den) with even | odd
      · rw [even]; simp; omega
      · rw [odd, Nat.add_mul]; omega

end ScriptMachine.Decimal
