import Gcode.Number.Rounding
import Mathlib.Data.Rat.Cast.Order
import Mathlib.Algebra.Order.Field.Basic
import Mathlib.Tactic.FieldSimp
import Mathlib.Tactic.Linarith
import Mathlib.Tactic.Positivity
import Mathlib.Tactic.Ring

/-! Rounding half to even picks the closest natural number.
A quotient is never moved by more than one half, and by exactly one half only to an even number;
these two facts determine the rounded quotient.
-/

namespace Gcode.Number

/-- A quotient is its floor and the remainder over the divisor. -/
theorem cast_div_eq_floor_add (num : Nat) {den : Nat} (positive : 0 < den)
    : (num : ℚ) / den = (num / den : Nat) + ((num % den : Nat) : ℚ) / den := by
  have hd : (den : ℚ) ≠ 0 := by exact_mod_cast positive.ne'
  have split : (num : ℚ) = den * (num / den : Nat) + (num % den : Nat) := by
    exact_mod_cast (Nat.div_add_mod num den).symm
  rw [eq_comm, ← mul_left_inj' hd, add_mul, div_mul_cancel₀ _ hd, div_mul_cancel₀ _ hd]
  linarith

/-- Rounding moves a quotient by one half at most, by the two cases of the definition. -/
theorem abs_roundHalfEven_sub_le (num : Nat) {den : Nat} (positive : 0 < den)
    : |(roundHalfEven num den : ℚ) - num / den| ≤ 1 / 2 := by
  have hd : (0 : ℚ) < den := by exact_mod_cast positive
  have hlt : ((num % den : Nat) : ℚ) < den := by exact_mod_cast Nat.mod_lt num positive
  rw [cast_div_eq_floor_add num positive, abs_le]
  unfold roundHalfEven
  dsimp only
  split
  · rename_i below
    have hr : 2 * ((num % den : Nat) : ℚ) ≤ den := by
      exact_mod_cast below.elim Nat.le_of_lt fun tie => tie.1.le
    have hq : ((num % den : Nat) : ℚ) / den ≤ 1 / 2 := by
      rw [div_le_div_iff₀ hd two_pos]
      linarith
    have hp : 0 ≤ ((num % den : Nat) : ℚ) / den := by positivity
    constructor <;> linarith
  · rename_i above
    have hr : (den : ℚ) ≤ 2 * ((num % den : Nat) : ℚ) := by
      have : den ≤ 2 * (num % den) := by omega
      exact_mod_cast this
    have hq : 1 / 2 ≤ ((num % den : Nat) : ℚ) / den := by
      rw [div_le_div_iff₀ two_pos hd]
      linarith
    have hp : ((num % den : Nat) : ℚ) / den ≤ 1 := (div_le_one hd).2 hlt.le
    push_cast
    constructor <;> linarith

/-- A quotient halfway between two numbers goes to the even one. -/
theorem even_roundHalfEven_of_tie (num : Nat) {den : Nat} (positive : 0 < den)
    (tie : |(roundHalfEven num den : ℚ) - num / den| = 1 / 2)
    : roundHalfEven num den % 2 = 0 := by
  have hd : (den : ℚ) ≠ 0 := by exact_mod_cast positive.ne'
  have halves : 2 * (num % den) = den := by
    rw [cast_div_eq_floor_add num positive] at tie
    have hr : ((num % den : Nat) : ℚ) / den = 1 / 2 := by
      revert tie
      unfold roundHalfEven
      dsimp only
      split <;> push_cast <;> intro tie
      · rw [sub_add_cancel_left, abs_neg, abs_of_nonneg (by positivity)] at tie
        exact tie
      · have hle : ((num % den : Nat) : ℚ) / den ≤ 1 := by
          rw [div_le_one (by positivity)]
          exact_mod_cast (Nat.mod_lt num positive).le
        rw [add_sub_add_left_eq_sub, abs_of_nonneg (by linarith)] at tie
        linarith
    rw [div_eq_div_iff hd two_ne_zero] at hr
    have : (num % den : Nat) * 2 = 1 * den := by exact_mod_cast hr
    omega
  unfold roundHalfEven
  dsimp only
  split <;> omega

/-- Two different integers cannot both be less than one half away from a number. -/
theorem one_le_abs_sub_add_abs_sub_int {m n : Int} (different : m ≠ n) (x : ℚ)
    : 1 ≤ |(m : ℚ) - x| + |(n : ℚ) - x| := by
  have apart : (1 : ℚ) ≤ |(m : ℚ) - n| := by
    exact_mod_cast Int.one_le_abs (sub_ne_zero.2 different)
  have triangle := abs_sub_le (m : ℚ) x n
  rw [abs_sub_comm x] at triangle
  exact apart.trans triangle

theorem one_le_abs_sub_add_abs_sub {m n : Nat} (different : m ≠ n) (x : ℚ)
    : 1 ≤ |(m : ℚ) - x| + |(n : ℚ) - x| := by
  have integers : (m : Int) ≠ n := by omega
  exact_mod_cast one_le_abs_sub_add_abs_sub_int integers x

/-- Of all natural numbers the rounded quotient is closest to the quotient: any other one is at
least one away from it.
-/
theorem abs_roundHalfEven_sub_le_abs_sub (num : Nat) {den : Nat} (positive : 0 < den) (n : Nat)
    : |(roundHalfEven num den : ℚ) - num / den| ≤ |(n : ℚ) - num / den| := by
  by_cases same : n = roundHalfEven num den
  · rw [same]
  · have hb := abs_roundHalfEven_sub_le num positive
    have apart := one_le_abs_sub_add_abs_sub same ((num : ℚ) / den)
    linarith

/-- A number within one half of a quotient is the rounded quotient, if it is even where it is
exactly one half away.
-/
theorem roundHalfEven_eq_of_abs_sub_le {num den n : Nat} (positive : 0 < den)
    (close : |(n : ℚ) - num / den| ≤ 1 / 2)
    (even : |(n : ℚ) - num / den| = 1 / 2 → n % 2 = 0)
    : roundHalfEven num den = n := by
  by_contra different
  have apart := one_le_abs_sub_add_abs_sub different ((num : ℚ) / den)
  have hb := abs_roundHalfEven_sub_le num positive
  have evenR := even_roundHalfEven_of_tie num positive (by linarith)
  have evenN := even (by linarith)
  -- both are even, and at most one away from each other
  have near : |(roundHalfEven num den : ℚ) - n| ≤ 1 := by
    have triangle := abs_sub_le (roundHalfEven num den : ℚ) ((num : ℚ) / den) n
    rw [abs_sub_comm ((num : ℚ) / den)] at triangle
    linarith
  have : |(roundHalfEven num den : Int) - n| ≤ 1 := by exact_mod_cast near
  have := abs_le.1 this
  omega

/-- Equal quotients are rounded to the same number. -/
theorem roundHalfEven_congr {num den num' den' : Nat} (positive : 0 < den) (positive' : 0 < den')
    (same : (num : ℚ) / den = num' / den')
    : roundHalfEven num den = roundHalfEven num' den' := by
  refine roundHalfEven_eq_of_abs_sub_le positive ?_ ?_
  · rw [same]
    exact abs_roundHalfEven_sub_le num' positive'
  · rw [same]
    exact even_roundHalfEven_of_tie num' positive'

end Gcode.Number
