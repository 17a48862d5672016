/-! Rounding a quotient of natural numbers to the nearest natural number.
A quotient halfway between two neighbours goes to the even one.
-/

namespace Gcode.Number

def roundHalfEven (num den : Nat) : Nat :=
  let low := num / den
  let twice := 2 * (num % den)
  if twice < den ∨ (twice = den ∧ low % 2 = 0) then low else low + 1

theorem roundHalfEven_le (num den : Nat) : roundHalfEven num den ≤ num / den + 1 := by
  unfold roundHalfEven
  dsimp only
  split <;> omega

/-- An exact quotient is its own rounding. -/
theorem roundHalfEven_mul (n den : Nat) (positive : 0 < den)
    : roundHalfEven (n * den) den = n := by
  simp [roundHalfEven, Nat.mul_div_cancel n positive, positive]

end Gcode.Number
