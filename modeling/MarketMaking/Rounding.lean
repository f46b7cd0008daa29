/-!
# Rounding a quotient

Rounding the quotient of two natural numbers to the nearest natural number, with a choice of what
happens to an exact half. Both the rounding of doubles to integers and the printing of decimals
rest on it.
-/

namespace MarketMaking

/-- Where an exact half goes. -/
inductive Tie where
  | toEven
  | up
  deriving DecidableEq, Repr

/-- The natural number nearest to `num / den`. -/
def roundDiv (tie : Tie) (num den : Nat) : Nat :=
  let quotient := num / den
  let twice := 2 * (num % den)
  if twice < den then quotient
  else if den < twice then quotient + 1
  else match tie with
    | .toEven => quotient + quotient % 2
    | .up => quotient + 1

/-- A rounded quotient is the whole one below or the one above, whichever is not farther away. -/
theorem roundDiv_eq_or (tie : Tie) (num den : Nat) :
    (roundDiv tie num den = num / den ∧ 2 * (num % den) ≤ den) ∨
      (roundDiv tie num den = num / den + 1 ∧ den ≤ 2 * (num % den)) := by
  cases tie <;> grind [roundDiv]

/-- A rounded quotient is at most half a unit too large. -/
theorem two_mul_roundDiv_mul_le (tie : Tie) (num den : Nat) :
    2 * (roundDiv tie num den * den) ≤ 2 * num + den := by
  have split := Nat.div_add_mod' num den
  obtain ⟨h, _⟩ | ⟨h, _⟩ := roundDiv_eq_or tie num den
  · rw [h]
    omega
  · rw [h, Nat.add_mul, Nat.one_mul]
    omega

/-- A rounded quotient is at most half a unit too small. -/
theorem le_two_mul_roundDiv_mul (tie : Tie) (num : Nat) {den : Nat} (pos : 0 < den) :
    2 * num ≤ 2 * (roundDiv tie num den * den) + den := by
  have split := Nat.div_add_mod' num den
  have small := Nat.mod_lt num pos
  obtain ⟨h, _⟩ | ⟨h, _⟩ := roundDiv_eq_or tie num den
  · rw [h]
    omega
  · rw [h, Nat.add_mul, Nat.one_mul]
    omega

/-- Rounding an exact quotient changes nothing. -/
theorem roundDiv_mul_self (tie : Tie) (n : Nat) {den : Nat} (pos : 0 < den) :
    roundDiv tie (n * den) den = n := by
  simp [roundDiv, pos]

end MarketMaking
