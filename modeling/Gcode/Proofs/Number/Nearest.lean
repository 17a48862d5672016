import Gcode.Number.Binary64
import Gcode.Proofs.Number.Rounding
import Mathlib.Algebra.Order.Floor.Semifield
import Mathlib.Data.Nat.Cast.Order.Field
import Mathlib.Data.Rat.Floor

/-! The nearest binary64 magnitude to a quotient of units.
It depends on the value of the quotient alone, no other magnitude with 53 binary digits is closer,
and larger quotients never go to smaller magnitudes.
-/

namespace Gcode.Number.Binary64

theorem spacing_pos (units : Nat) : 0 < spacing units :=
  Nat.two_pow_pos _

theorem unitsPerOne_pos : 0 < unitsPerOne := by
  decide +kernel

/-- A magnitude with as many binary digits has at least as wide a spacing. -/
theorem spacing_dvd_spacing {units more : Nat} (h : units.log2 ≤ more.log2)
    : spacing units ∣ spacing more :=
  Nat.pow_dvd_pow 2 (by omega)

/-- A quotient that is a magnitude with 53 binary digits is its own rounding. -/
theorem nearest_mul {units den : Nat} (positive : 0 < den) (exact : spacing units ∣ units)
    : nearest (units * den) den = units := by
  obtain ⟨count, hc⟩ := exact
  have product : units * den = count * (den * spacing units) := by
    conv_lhs => rw [hc]
    ring
  unfold nearest
  rw [Nat.mul_div_cancel _ positive, product]
  dsimp only
  rw [roundHalfEven_mul _ _ (Nat.mul_pos positive (spacing_pos units)), Nat.mul_comm, ← hc]

/-- The distance of a multiple of a step to a quotient, counted in steps. -/
theorem abs_mul_sub_div (num den count : Nat) {step : Nat} (positive : 0 < step)
    : |((count * step : Nat) : ℚ) - num / den|
      = step * |(count : ℚ) - num / ((den * step : Nat) : ℚ)| := by
  have hs : (0 : ℚ) < step := by exact_mod_cast positive
  have hd : (num : ℚ) / ((den * step : Nat) : ℚ) = num / den / step := by
    push_cast
    rw [div_div]
  rw [hd, ← abs_of_pos hs, ← abs_mul, abs_of_pos hs, mul_sub, mul_div_cancel₀ _ hs.ne']
  push_cast
  rw [mul_comm]

/-- No magnitude with 53 binary digits is closer to a quotient than the nearest one. Multiples of
the step at the quotient are compared by their counts; any other magnitude lies below the power of
two under the quotient, which is such a multiple.
-/
theorem abs_nearest_sub_le {den : Nat} (num : Nat) (positive : 0 < den) {units : Nat}
    (exact : spacing units ∣ units)
    : |(nearest num den : ℚ) - num / den| ≤ |(units : ℚ) - num / den| := by
  have multiples (count : Nat)
      : |(nearest num den : ℚ) - num / den|
        ≤ |((count * spacing (num / den) : Nat) : ℚ) - num / den| := by
    have hs := spacing_pos (num / den)
    unfold nearest
    dsimp only
    rw [abs_mul_sub_div num den _ hs, abs_mul_sub_div num den _ hs]
    exact mul_le_mul_of_nonneg_left
      (abs_roundHalfEven_sub_le_abs_sub num (Nat.mul_pos positive hs) count) (by positivity)
  by_cases wide : (num / den).log2 ≤ units.log2
  · obtain ⟨count, hc⟩ := (spacing_dvd_spacing wide).trans exact
    have h := multiples count
    rwa [Nat.mul_comm, ← hc] at h
  · have hq : num / den ≠ 0 := fun zero => wide (by simp [zero])
    -- the power of two below the quotient
    obtain ⟨count, hc⟩ : spacing (num / den) ∣ 2 ^ (num / den).log2 :=
      Nat.pow_dvd_pow 2 (by omega)
    have below : units ≤ 2 ^ (num / den).log2 := by
      refine (Nat.lt_log2_self (n := units)).le.trans ?_
      exact Nat.pow_le_pow_right two_pos (by omega)
    have above : ((2 ^ (num / den).log2 : Nat) : ℚ) ≤ num / den := by
      have floor : ((num / den : Nat) : ℚ) ≤ num / den := Nat.cast_div_le
      exact le_trans (by exact_mod_cast Nat.log2_self_le hq) floor
    have h := multiples count
    rw [Nat.mul_comm, ← hc] at h
    refine h.trans ?_
    have hb : (units : ℚ) ≤ (2 ^ (num / den).log2 : Nat) := by exact_mod_cast below
    rw [abs_of_nonpos (by linarith), abs_of_nonpos (by linarith)]
    linarith

/-- Equal quotients go to the same magnitude. -/
theorem nearest_congr {num den num' den' : Nat} (positive : 0 < den) (positive' : 0 < den')
    (same : (num : ℚ) / den = num' / den')
    : nearest num den = nearest num' den' := by
  have floors : num / den = num' / den' := by
    rw [← Nat.floor_div_eq_div (K := ℚ) num den, same, Nat.floor_div_eq_div]
  have hs := spacing_pos (num' / den')
  unfold nearest
  rw [floors]
  dsimp only
  rw [roundHalfEven_congr (Nat.mul_pos positive hs) (Nat.mul_pos positive' hs)]
  push_cast
  rw [← div_div, ← div_div, same]

/-- A point that is at least as close to the larger one of two numbers lies above their middle. -/
theorem le_two_mul_of_abs_sub_le {low high point : ℚ} (less : low < high)
    (close : |high - point| ≤ |low - point|) : low + high ≤ 2 * point := by
  have squares := sq_le_sq.2 close
  nlinarith

/-- A point that is at least as close to the smaller one of two numbers lies below their middle.
-/
theorem two_mul_le_of_abs_sub_le {low high point : ℚ} (less : low < high)
    (close : |low - point| ≤ |high - point|) : 2 * point ≤ low + high := by
  have squares := sq_le_sq.2 close
  nlinarith

/-- Rounding keeps the order of quotients: were it turned round, both quotients would be the
middle of the two magnitudes and go to the same one.
-/
theorem nearest_mono {num den num' den' : Nat} (positive : 0 < den) (positive' : 0 < den')
    (order : (num : ℚ) / den ≤ num' / den')
    : nearest num den ≤ nearest num' den' := by
  by_contra turned
  have less : (nearest num' den' : ℚ) < nearest num den := by exact_mod_cast not_le.1 turned
  have above := le_two_mul_of_abs_sub_le less
    (abs_nearest_sub_le num positive (spacing_dvd_nearest num' den'))
  have below := two_mul_le_of_abs_sub_le less
    (abs_nearest_sub_le num' positive' (spacing_dvd_nearest num den))
  have middle : (num : ℚ) / den = num' / den' := by linarith
  have same := nearest_congr positive positive' middle
  omega

/-- A quotient at most as large as a magnitude goes to one at most as large. -/
theorem nearest_le_of_div_le {num den units : Nat} (positive : 0 < den)
    (exact : spacing units ∣ units) (order : (num : ℚ) / den ≤ units)
    : nearest num den ≤ units := by
  have ratio : (num : ℚ) / den ≤ (units * 1 : Nat) / (1 : Nat) := by simpa using order
  have h := nearest_mono positive one_pos ratio
  rwa [nearest_mul one_pos exact] at h

/-- A quotient at least as large as a magnitude goes to one at least as large. -/
theorem le_nearest_of_le_div {num den units : Nat} (positive : 0 < den)
    (exact : spacing units ∣ units) (order : (units : ℚ) ≤ num / den)
    : units ≤ nearest num den := by
  have ratio : ((units * 1 : Nat) : ℚ) / (1 : Nat) ≤ num / den := by simpa using order
  have h := nearest_mono one_pos positive ratio
  rwa [nearest_mul one_pos exact] at h

theorem spacing_two_pow_dvd (exponent : Nat) : spacing (2 ^ exponent) ∣ 2 ^ exponent := by
  unfold spacing
  rw [Nat.log2_two_pow]
  exact Nat.pow_dvd_pow 2 (by omega)

/-- Below a power of two the magnitudes end one step before it. -/
theorem add_le_two_pow {units step : Nat} (exact : spacing units ∣ units)
    (less : units < 2 ^ (53 + step)) : units + 2 ^ step ≤ 2 ^ (53 + step) := by
  by_cases large : 52 + step ≤ units.log2
  · obtain ⟨count, hc⟩ : 2 ^ step ∣ units := (Nat.pow_dvd_pow 2 (by omega)).trans exact
    rw [hc, Nat.add_comm 53, Nat.pow_add] at less
    have hlt : count < 2 ^ 53 := Nat.lt_of_mul_lt_mul_left less
    rw [hc, Nat.add_comm 53, Nat.pow_add, ← Nat.mul_succ]
    exact Nat.mul_le_mul_left _ hlt
  · have small : units < 2 ^ (52 + step) :=
      Nat.lt_log2_self.trans_le (Nat.pow_le_pow_right two_pos (by omega))
    have narrow : 2 ^ step ≤ 2 ^ (52 + step) := Nat.pow_le_pow_right two_pos (by omega)
    have double : 2 ^ (53 + step) = 2 ^ (52 + step) * 2 := by
      rw [← Nat.pow_succ]
      congr 1
      omega
    omega

theorem unitsPerOne_eq {exponent : Nat} (h : exponent = 1074) : unitsPerOne = 2 ^ exponent := by
  unfold unitsPerOne
  exact congrArg _ h.symm

theorem overflow_eq {exponent : Nat} (h : exponent = 2098) : overflow = 2 ^ exponent := by
  unfold overflow
  exact congrArg _ h.symm

theorem spacing_dvd_overflow : spacing overflow ∣ overflow := by
  obtain ⟨exponent, h⟩ : ∃ exponent, overflow = 2 ^ exponent := ⟨2098, overflow_eq rfl⟩
  rw [h]
  exact spacing_two_pow_dvd exponent

/-- The finite magnitudes end one step before the overflow, and a step there is more than one. -/
theorem Representable.add_unitsPerOne_lt {units : Nat} (h : Representable units)
    : units + unitsPerOne < overflow := by
  obtain ⟨step, hs⟩ : ∃ step, step = 2045 := ⟨_, rfl⟩
  obtain ⟨exponent, he⟩ : ∃ exponent, exponent = 1074 := ⟨_, rfl⟩
  have sum : 53 + step = 2098 := by omega
  have less := h.lt
  rw [overflow_eq sum] at less ⊢
  rw [unitsPerOne_eq he]
  have room := add_le_two_pow h.dvd less
  have narrow : 2 ^ exponent < 2 ^ step := Nat.pow_lt_pow_right (by decide) (by omega)
  omega

end Gcode.Number.Binary64
