import Gcode.Number.Numeral
import Gcode.Proofs.Number.Nearest
import Mathlib.Algebra.Order.Field.Power
import Mathlib.Tactic.GCongr
import Mathlib.Tactic.NormNum

/-! The binary64 number of a numeral is the one nearest to its value.
Numerals that are told apart as plainly too large or too small go where rounding their value
would send them.
-/

namespace Gcode.Number

namespace Binary64

theorem ten_pow_pos (places : Nat) : 0 < 10 ^ places :=
  Nat.pow_pos (by decide)

theorem ofRatio_of_nearest {num den units : Nat} (negative : Bool) (h : Representable units)
    (same : nearest num den = units) : ofRatio negative num den = .finite negative units h := by
  subst same
  simp [ofRatio, h.lt]

theorem ofRatio_of_overflow {num den : Nat} (negative : Bool)
    (large : overflow ≤ nearest num den) : ofRatio negative num den = .infinity negative := by
  simp [ofRatio, large]

theorem ofRatio_congr {num den num' den' : Nat} (negative : Bool)
    (same : nearest num den = nearest num' den')
    : ofRatio negative num den = ofRatio negative num' den' := by
  simp only [ofRatio, same]

end Binary64

open Binary64

namespace Numeral

/-- The exact value of a numeral in units. -/
def units (n : Numeral) : ℚ :=
  n.digits * 10 ^ n.exponent * unitsPerOne

/-- The quotient that a numeral is rounded as, for both signs of its exponent. -/
theorem units_of_nonneg {n : Numeral} (h : 0 ≤ n.exponent)
    : ((n.digits * 10 ^ n.exponent.toNat * unitsPerOne : Nat) : ℚ) / (1 : Nat) = n.units := by
  have he : (10 : ℚ) ^ n.exponent = 10 ^ n.exponent.toNat := by
    rw [← zpow_natCast, Int.toNat_of_nonneg h]
  rw [units, he]
  push_cast
  ring

theorem units_of_neg {n : Numeral} (h : n.exponent < 0)
    : ((n.digits * unitsPerOne : Nat) : ℚ) / ((10 ^ (-n.exponent).toNat : Nat) : ℚ)
      = n.units := by
  have he : (10 : ℚ) ^ n.exponent = ((10 : ℚ) ^ (-n.exponent).toNat)⁻¹ := by
    rw [← zpow_natCast, Int.toNat_of_nonneg (by omega), ← zpow_neg, neg_neg]
  rw [units, he]
  push_cast
  ring

/-- A whole number is a number of tenths. -/
theorem units_tenths (n : Nat) : (⟨n * 10, -1⟩ : Numeral).units = (⟨n, 0⟩ : Numeral).units := by
  have ten : (10 : ℚ) ≠ 0 := by norm_num
  rw [units, units, zpow_neg_one, zpow_zero, mul_one, Nat.cast_mul, Nat.cast_ofNat,
    mul_inv_cancel_right₀ ten]

/-- A numeral is rounded like every quotient that has its value. -/
theorem nearest_eq (n : Numeral) {num den : Nat} (positive : 0 < den)
    (same : (num : ℚ) / den = n.units) : n.nearest = Binary64.nearest num den := by
  unfold nearest
  split
  · rename_i h
    exact nearest_congr one_pos positive ((units_of_nonneg h).trans same.symm)
  · rename_i h
    exact nearest_congr (ten_pow_pos _) positive
      ((units_of_neg (not_le.1 h)).trans same.symm)

/-- Every numeral has the value of some quotient. -/
theorem exists_quotient (n : Numeral)
    : ∃ num den : Nat, 0 < den ∧ (num : ℚ) / den = n.units := by
  by_cases h : 0 ≤ n.exponent
  · exact ⟨_, _, one_pos, units_of_nonneg h⟩
  · exact ⟨_, _, ten_pow_pos _, units_of_neg (not_le.1 h)⟩

/-- The decimal power past the finite numbers is compared in pieces that can be evaluated. -/
theorem two_pow_le_ten_pow : (2 : ℚ) ^ 1024 ≤ 10 ^ 309 := by
  calc (2 : ℚ) ^ 1024 = (2 ^ 63) ^ 16 * 2 ^ 16 := by rw [← pow_mul, ← pow_add]
    _ ≤ (10 ^ 19) ^ 16 * 10 ^ 5 := by gcongr <;> norm_num
    _ = 10 ^ 309 := by rw [← pow_mul, ← pow_add]

/-- A value past the finite magnitudes: `10 ^ 309` is larger than `2 ^ 1024`. -/
theorem overflow_le_units {n : Numeral} (digits : n.digits ≠ 0) (large : 309 ≤ n.exponent)
    : (overflow : ℚ) ≤ n.units := by
  have hd : (1 : ℚ) ≤ n.digits := by exact_mod_cast Nat.one_le_iff_ne_zero.2 digits
  have hp : (10 : ℚ) ^ 309 ≤ 10 ^ n.exponent := by
    rw [← zpow_natCast]
    exact zpow_le_zpow_right₀ (by norm_num) large
  have split : (overflow : ℚ) = 2 ^ 1024 * unitsPerOne := by
    obtain ⟨exponent, he⟩ : ∃ exponent, exponent = 1074 := ⟨_, rfl⟩
    have sum : 1024 + exponent = 2098 := by omega
    rw [overflow_eq sum, unitsPerOne_eq he, Nat.pow_add]
    simp only [Nat.cast_mul, Nat.cast_pow, Nat.cast_ofNat]
  rw [split, units]
  refine mul_le_mul_of_nonneg_right ?_ (Nat.cast_nonneg _)
  calc (2 : ℚ) ^ 1024 ≤ 10 ^ 309 := two_pow_le_ten_pow
    _ ≤ 1 * 10 ^ n.exponent := by rw [one_mul]; exact hp
    _ ≤ n.digits * 10 ^ n.exponent := mul_le_mul_of_nonneg_right hd (by positivity)

/-- A value below half a unit: its digits are too few for its exponent. -/
theorem units_lt_half {n : Numeral} (small : n.exponent < -(n.digits.log2 + 1100 : Nat))
    : n.units < 1 / 2 := by
  have hd : (n.digits : ℚ) < 2 ^ (n.digits.log2 + 1) := by exact_mod_cast Nat.lt_log2_self
  have hp : (10 : ℚ) ^ n.exponent ≤ (2 ^ (n.digits.log2 + 1100))⁻¹ := by
    calc (10 : ℚ) ^ n.exponent ≤ 10 ^ (-(n.digits.log2 + 1100 : Nat) : Int) :=
          zpow_le_zpow_right₀ (by norm_num) small.le
      _ = (10 ^ (n.digits.log2 + 1100))⁻¹ := by rw [zpow_neg, zpow_natCast]
      _ ≤ (2 ^ (n.digits.log2 + 1100))⁻¹ :=
          inv_anti₀ (by positivity) (pow_le_pow_left₀ (by norm_num) (by norm_num) _)
  obtain ⟨exponent, he⟩ : ∃ exponent, exponent = 1074 := ⟨_, rfl⟩
  have hu : (unitsPerOne : ℚ) = 2 ^ exponent := by
    rw [unitsPerOne_eq he]
    push_cast
    rfl
  have hpos : (0 : ℚ) < 10 ^ n.exponent := by positivity
  have sum : n.digits.log2 + 1100 = (n.digits.log2 + 1) + exponent + 25 := by omega
  rw [units, hu]
  calc (n.digits : ℚ) * 10 ^ n.exponent * 2 ^ exponent
      < 2 ^ (n.digits.log2 + 1) * 10 ^ n.exponent * 2 ^ exponent := by gcongr
    _ ≤ 2 ^ (n.digits.log2 + 1) * (2 ^ (n.digits.log2 + 1100))⁻¹ * 2 ^ exponent := by gcongr
    _ = (2 ^ 25)⁻¹ := by
        rw [sum, pow_add _ (_ + exponent) 25, pow_add _ (_ + 1) exponent]
        field_simp
    _ < 1 / 2 := by norm_num

/-- The number of a numeral is the rounded quotient, for every quotient with its value. -/
theorem toBinary64_eq_ofRatio (n : Numeral) (negative : Bool) {num den : Nat}
    (positive : 0 < den) (same : (num : ℚ) / den = n.units)
    : n.toBinary64 negative = .ofRatio negative num den := by
  unfold toBinary64
  split
  · rename_i none
    have zero : num = 0 := by
      have hq : (num : ℚ) / den = 0 := by rw [same, units, none, Nat.cast_zero, zero_mul, zero_mul]
      have hd : (den : ℚ) ≠ 0 := by exact_mod_cast positive.ne'
      exact_mod_cast (div_eq_zero_iff.1 hq).resolve_right hd
    subst zero
    have exact : spacing 0 ∣ 0 := dvd_zero _
    have h := nearest_mul positive exact
    rw [Nat.zero_mul] at h
    exact (ofRatio_of_nearest negative representable_zero h).symm
  rename_i some
  split
  · rename_i large
    refine (ofRatio_of_overflow negative ?_).symm
    exact le_nearest_of_le_div positive spacing_dvd_overflow
      ((overflow_le_units some large).trans same.ge)
  split
  · rename_i small
    refine (ofRatio_of_nearest negative representable_zero ?_).symm
    have half := units_lt_half small
    have hq : (0 : ℚ) ≤ num / den := by positivity
    have exact : spacing 0 ∣ 0 := dvd_zero _
    have close := abs_nearest_sub_le num positive exact
    rw [← same] at half
    rw [Nat.cast_zero, zero_sub, abs_neg, abs_of_nonneg hq, abs_le] at close
    have : (Binary64.nearest num den : ℚ) < 1 := by linarith
    have : Binary64.nearest num den < 1 := by exact_mod_cast this
    omega
  split
  · rename_i h
    exact ofRatio_congr negative
      (Binary64.nearest_congr one_pos positive ((units_of_nonneg h).trans same.symm))
  · rename_i h
    exact ofRatio_congr negative
      (Binary64.nearest_congr (ten_pow_pos _) positive
        ((units_of_neg (not_le.1 h)).trans same.symm))

/-- Numerals with the same value denote the same number. -/
theorem toBinary64_congr {m n : Numeral} (negative : Bool) (same : m.units = n.units)
    : m.toBinary64 negative = n.toBinary64 negative := by
  obtain ⟨num, den, positive, quotient⟩ := n.exists_quotient
  rw [m.toBinary64_eq_ofRatio negative positive (quotient.trans same.symm),
    n.toBinary64_eq_ofRatio negative positive quotient]

/-- A numeral whose nearest magnitude is finite denotes that number. -/
theorem toBinary64_of_nearest {n : Numeral} {magnitude : Nat} (negative : Bool)
    (h : Representable magnitude) (same : n.nearest = magnitude)
    : n.toBinary64 negative = .finite negative magnitude h := by
  obtain ⟨num, den, positive, quotient⟩ := n.exists_quotient
  rw [n.toBinary64_eq_ofRatio negative positive quotient]
  refine ofRatio_of_nearest negative h ?_
  rw [← same, n.nearest_eq positive quotient]

/-- A numeral that denotes a finite number denotes its nearest magnitude. -/
theorem toBinary64_of_isFinite {n : Numeral} {negative : Bool}
    (finite : (n.toBinary64 negative).isFinite)
    : ∃ h, n.toBinary64 negative = .finite negative n.nearest h := by
  obtain ⟨num, den, positive, quotient⟩ := n.exists_quotient
  have ratio := n.toBinary64_eq_ofRatio negative positive quotient
  have same := n.nearest_eq positive quotient
  rw [ratio] at finite
  have small : n.nearest < overflow := by
    by_contra large
    rw [ofRatio_of_overflow negative (by omega)] at finite
    contradiction
  have h : Representable n.nearest := ⟨same ▸ spacing_dvd_nearest num den, small⟩
  exact ⟨h, toBinary64_of_nearest negative h rfl⟩

end Numeral
end Gcode.Number
