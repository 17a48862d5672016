import Gcode.Number.Int64
import Gcode.Proofs.Number.Code
import Gcode.Proofs.Word.Equality

/-! Tenths of numbers as 64-bit integers.
The number nearest to a decimal with one place after the point, ten times that number, and the
nearest integer of it: as long as the decimal is below `10 ^ 14`, the two roundings together move
it by less than half a tenth, so its tenths come back. Larger decimals never get fewer tenths.
-/

namespace Gcode.Number.Binary64

attribute [local irreducible] unitsPerOne overflow

-----------------------------------------------------------------------------------------
-- How far rounding moves
-----------------------------------------------------------------------------------------

/-- Rounding moves a quotient by half a step at most. -/
theorem abs_nearest_sub_le_half_spacing (num : Nat) {den : Nat} (positive : 0 < den)
    : |(nearest num den : ℚ) - num / den| ≤ spacing (num / den) / 2 := by
  have hs := spacing_pos (num / den)
  have count := abs_roundHalfEven_sub_le num (Nat.mul_pos positive hs)
  unfold nearest
  dsimp only
  rw [abs_mul_sub_div num den _ hs, div_eq_mul_one_div (spacing (num / den) : ℚ)]
  exact mul_le_mul_of_nonneg_left count (by positivity)

/-- Steps below `2 ^ width` are `2 ^ (width - 53)` at most. -/
theorem spacing_mul_le {units width : Nat} (less : units < 2 ^ width * unitsPerOne)
    (narrow : width ≤ 53) : spacing units * 2 ^ (53 - width) ≤ unitsPerOne := by
  obtain ⟨exponent, he⟩ : ∃ exponent, exponent = 1074 := ⟨_, rfl⟩
  rw [unitsPerOne_eq he] at less ⊢
  rw [← Nat.pow_add] at less
  rw [spacing, Nat.pow_eq, ← Nat.pow_add]
  refine Nat.pow_le_pow_right two_pos ?_
  rcases Nat.eq_zero_or_pos units with rfl | some
  · rw [Nat.log2_zero]
    omega
  · have log := (Nat.log2_lt some.ne').2 less
    omega

-----------------------------------------------------------------------------------------
-- Tenths of magnitudes
-----------------------------------------------------------------------------------------

/-- The whole number nearest to ten times a magnitude, after the product is rounded. -/
def wholeTenths (units : Nat) : Nat :=
  (nearest (10 * units) 1 + unitsPerOne / 2) / unitsPerOne

theorem wholeTenths_mono {units more : Nat} (h : units ≤ more)
    : wholeTenths units ≤ wholeTenths more := by
  have product : nearest (10 * units) 1 ≤ nearest (10 * more) 1 := by
    refine nearest_mono one_pos one_pos ?_
    gcongr
  exact Nat.div_le_div_right (Nat.add_le_add_right product _)

/-- Decimals up to `10 ^ 14` are moved by less than one hundredth. -/
theorem abs_nearest_tenths_sub_le {count : Nat} (small : count ≤ 10 ^ 15)
    : |(nearest (count * unitsPerOne) 10 : ℚ) - count * unitsPerOne / 10| ≤ unitsPerOne / 128 := by
  have less : count * unitsPerOne / 10 < 2 ^ 47 * unitsPerOne := by
    refine Nat.div_lt_of_lt_mul ?_
    have := unitsPerOne_pos
    nlinarith
  have step : ((spacing (count * unitsPerOne / 10) * 2 ^ (53 - 47) : Nat) : ℚ) ≤ unitsPerOne := by
    exact_mod_cast spacing_mul_le less (by decide)
  have moved := abs_nearest_sub_le_half_spacing (count * unitsPerOne) (Nat.succ_pos 9)
  push_cast at step moved
  linarith

/-- Ten times the number nearest to a decimal up to `10 ^ 14` is moved by less than one tenth. -/
theorem abs_nearest_product_sub_le {units : Nat} (small : units ≤ (10 ^ 14 + 1) * unitsPerOne)
    : |(nearest (10 * units) 1 : ℚ) - 10 * units| ≤ unitsPerOne / 16 := by
  have less : 10 * units / 1 < 2 ^ 50 * unitsPerOne := by
    have := unitsPerOne_pos
    rw [Nat.div_one]
    nlinarith
  have step : ((spacing (10 * units / 1) * 2 ^ (53 - 50) : Nat) : ℚ) ≤ unitsPerOne := by
    exact_mod_cast spacing_mul_le less (by decide)
  have moved := abs_nearest_sub_le_half_spacing (10 * units) one_pos
  push_cast at step moved
  rw [div_one] at moved
  linarith

/-- Less than one half is rounded away. -/
theorem wholeTenths_eq_of_abs_sub_lt {units count : Nat}
    (close : |(nearest (10 * units) 1 : ℚ) - count * unitsPerOne| < unitsPerOne / 2)
    : wholeTenths units = count := by
  have even : 2 * (unitsPerOne / 2) = unitsPerOne := by
    obtain ⟨exponent, he⟩ : ∃ exponent, exponent + 1 = 1074 := ⟨1073, rfl⟩
    rw [unitsPerOne_eq he, Nat.pow_succ, Nat.mul_div_cancel _ two_pos, Nat.mul_comm]
  obtain ⟨low, high⟩ := abs_lt.1 close
  have half : ((2 * (unitsPerOne / 2) : Nat) : ℚ) = unitsPerOne := by rw [even]
  push_cast at half
  have least : count * unitsPerOne ≤ nearest (10 * units) 1 + unitsPerOne / 2 := by
    have : ((count * unitsPerOne : Nat) : ℚ)
        ≤ (nearest (10 * units) 1 + unitsPerOne / 2 : Nat) := by
      push_cast
      linarith
    exact_mod_cast this
  have most : nearest (10 * units) 1 + unitsPerOne / 2 < (count + 1) * unitsPerOne := by
    have : ((nearest (10 * units) 1 + unitsPerOne / 2 : Nat) : ℚ)
        < ((count + 1) * unitsPerOne : Nat) := by
      push_cast
      linarith
    exact_mod_cast this
  exact Nat.div_eq_of_lt_le least most

theorem nearest_tenths (count : Nat)
    : (⟨count, -1⟩ : Numeral).nearest = nearest (count * unitsPerOne) 10 := by
  have value := units_neg_places count 1
  rw [Nat.pow_one] at value
  exact Numeral.nearest_eq _ (by decide) value

theorem nearest_zero_tenths : (⟨0, -1⟩ : Numeral).nearest = 0 := by
  have exact : spacing 0 ∣ 0 := dvd_zero _
  have none := nearest_mul (Nat.succ_pos 9) exact
  rw [nearest_tenths, Nat.zero_mul]
  rwa [Nat.zero_mul] at none

theorem nearest_tenths_le {count : Nat} (small : count ≤ 10 ^ 15)
    : (⟨count, -1⟩ : Numeral).nearest ≤ (10 ^ 14 + 1) * unitsPerOne := by
  have ho : (0 : ℚ) < unitsPerOne := by exact_mod_cast unitsPerOne_pos
  have digits : (count : ℚ) ≤ 10 ^ 15 := by exact_mod_cast small
  obtain ⟨-, high⟩ := abs_le.1 (abs_nearest_tenths_sub_le small)
  have : (nearest (count * unitsPerOne) 10 : ℚ) ≤ ((10 ^ 14 + 1) * unitsPerOne : Nat) := by
    push_cast
    nlinarith
  rw [nearest_tenths]
  exact_mod_cast this

/-- The tenths of a decimal up to `10 ^ 14` come back. -/
theorem wholeTenths_nearest {count : Nat} (small : count ≤ 10 ^ 15)
    : wholeTenths (⟨count, -1⟩ : Numeral).nearest = count := by
  have ho : (0 : ℚ) < unitsPerOne := by exact_mod_cast unitsPerOne_pos
  obtain ⟨low, high⟩ := abs_le.1 (abs_nearest_tenths_sub_le small)
  have bound := nearest_tenths_le small
  rw [nearest_tenths] at bound ⊢
  obtain ⟨low', high'⟩ := abs_le.1 (abs_nearest_product_sub_le bound)
  refine wholeTenths_eq_of_abs_sub_lt (abs_lt.2 ⟨?_, ?_⟩) <;> linarith

theorem wholeTenths_zero : wholeTenths 0 = 0 := by
  have none := wholeTenths_nearest (Nat.zero_le (10 ^ 15))
  rwa [nearest_zero_tenths] at none

/-- Only the decimal with a number of tenths below `10 ^ 15` gets this number of tenths: a larger
one gets no fewer than `10 ^ 14` does.
-/
theorem eq_of_wholeTenths_nearest {count tenths : Nat} (small : tenths < 10 ^ 15)
    (h : wholeTenths (⟨count, -1⟩ : Numeral).nearest = tenths) : count = tenths := by
  rcases le_total count (10 ^ 15) with few | many
  · rwa [wholeTenths_nearest few] at h
  · have least := wholeTenths_mono (nearest_mono_digits (-1) many)
    rw [wholeTenths_nearest le_rfl, h] at least
    omega

-----------------------------------------------------------------------------------------
-- Tenths of numbers
-----------------------------------------------------------------------------------------

/-- The number nearest to a decimal below `10 ^ 14` with one place after the point, in either
sign.
-/
def IsTenths (x : Binary64) : Prop :=
  ∃ negative tenths, tenths < 10 ^ 15 ∧ x = Numeral.toBinary64 negative ⟨tenths, -1⟩

theorem representable_nearest_tenths {tenths : Nat} (small : tenths < 10 ^ 15)
    : Representable (⟨tenths, -1⟩ : Numeral).nearest where
  dvd := by
    rw [nearest_tenths]
    exact spacing_dvd_nearest _ _
  lt := by
    obtain ⟨exponent, he⟩ : ∃ exponent, exponent = 1074 := ⟨_, rfl⟩
    obtain ⟨width, hw⟩ : ∃ width, width = 1024 := ⟨_, rfl⟩
    have sum : width + exponent = 2098 := by omega
    have power : 2 ^ 47 ≤ 2 ^ width := Nat.pow_le_pow_right two_pos (by omega)
    have bound := nearest_tenths_le small.le
    rw [unitsPerOne_eq he] at bound
    rw [overflow_eq sum, Nat.pow_add]
    refine bound.trans_lt (Nat.mul_lt_mul_of_pos_right ?_ (Nat.two_pow_pos _))
    omega

theorem IsTenths.exists_finite {x : Binary64} (h : x.IsTenths)
    : ∃ negative tenths exact, tenths < 10 ^ 15
        ∧ x = .finite negative (⟨tenths, -1⟩ : Numeral).nearest exact := by
  obtain ⟨negative, tenths, small, rfl⟩ := h
  have exact := representable_nearest_tenths small
  exact ⟨negative, tenths, exact, small, Numeral.toBinary64_of_nearest negative exact rfl⟩

theorem tenths_of_signedUnits {x : Binary64} {units : Int} (h : x.signedUnits? = some units)
    : x.tenths = Int64.ofIntClamp
        (if units < 0 then -(wholeTenths units.natAbs : Int) else wholeTenths units.natAbs) := by
  rw [tenths, h]
  rfl

theorem tenths_finite (negative : Bool) {units : Nat} (h : Representable units)
    : (Binary64.finite negative units h).tenths
      = Int64.ofIntClamp (if negative then -(wholeTenths units : Int) else wholeTenths units) := by
  cases negative with
  | false =>
      have signed : (Binary64.finite false units h).signedUnits? = some (units : Int) := rfl
      have sign : ¬ (units : Int) < 0 := by omega
      rw [tenths_of_signedUnits signed, if_neg sign, Int.natAbs_natCast, if_neg nofun]
  | true =>
      have signed : (Binary64.finite true units h).signedUnits? = some (-(units : Int)) := rfl
      rw [tenths_of_signedUnits signed, Int.natAbs_neg, Int.natAbs_natCast, if_pos rfl]
      rcases Nat.eq_zero_or_pos units with rfl | positive
      · simp [wholeTenths_zero]
      · rw [if_pos (by omega)]

/-- Equal numbers have the same tenths. -/
theorem tenths_congr {x y : Binary64} (h : x.eq y) : x.tenths = y.tenths := by
  obtain ⟨units, left, right⟩ := eq_iff.1 h
  rw [tenths, tenths, left, right]

/-- Integers that are clamped to 64 bits are told apart from those that are well within them. -/
theorem eq_of_ofIntClamp_eq {m n : Int} (within : n.natAbs < 10 ^ 15)
    (h : Int64.ofIntClamp m = Int64.ofIntClamp n) : m = n := by
  have low := Int64.toInt_minValue
  have high := Int64.toInt_maxValue
  have right := Int64.toInt_ofIntClamp (x := n) (by omega) (by omega)
  rw [← h] at right
  unfold Int64.ofIntClamp at right
  split at right
  · split at right
    · rwa [Int64.toInt_ofIntLE] at right
    · omega
  · omega

/-- A code and a decimal of a table have the same tenths exactly if they are equal. -/
theorem tenths_eq_iff {code value : Binary64} (short : code.IsTenths) (read : value.IsCode)
    : code.tenths = value.tenths ↔ code.eq value := by
  refine ⟨?_, tenths_congr⟩
  intro same
  obtain ⟨negative, tenths, exact, small, rfl⟩ := short.exists_finite
  obtain ⟨count, exact', rfl⟩ := read.exists_finite
  rw [tenths_finite, tenths_finite, wholeTenths_nearest small.le] at same
  have signed := eq_of_ofIntClamp_eq (by split <;> omega) same.symm
  have whole : wholeTenths (⟨count, -1⟩ : Numeral).nearest = tenths := by
    cases negative with
    | false =>
        have signed : (wholeTenths (⟨count, -1⟩ : Numeral).nearest : Int) = tenths := signed
        omega
    | true =>
        have signed : (wholeTenths (⟨count, -1⟩ : Numeral).nearest : Int) = -tenths := signed
        omega
  obtain rfl := eq_of_wholeTenths_nearest small whole
  cases negative with
  | false => exact eq_self rfl
  | true =>
      -- a minus sign is left over for zero alone
      have none : count = 0 := by
        rw [whole, if_pos rfl, if_neg nofun] at signed
        omega
      have zero : (⟨count, -1⟩ : Numeral).nearest = 0 := by rw [none, nearest_zero_tenths]
      refine eq_iff.2 ⟨0, ?_, ?_⟩ <;> simp [signedUnits?, zero]

end Gcode.Number.Binary64
