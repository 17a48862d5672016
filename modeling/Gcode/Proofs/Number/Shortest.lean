import Gcode.Proofs.Number.Fixed

/-! The shortest text of a number reads back to the number.
No numeral with a coarser last place reads back, so the nearest number of a decimal with one place
after the point never needs a second one.
-/

namespace Gcode.Number

open Text

namespace Binary64

attribute [local irreducible] unitsPerOne overflow

-----------------------------------------------------------------------------------------
-- One place
-----------------------------------------------------------------------------------------

theorem inSteps_eq (units : Nat) (exponent : Int)
    : inSteps units exponent
      = if 0 ≤ exponent then (units, unitsPerOne * 10 ^ exponent.toNat)
        else (units * 10 ^ (-exponent).toNat, unitsPerOne) :=
  rfl

theorem inSteps_den_pos (units : Nat) (exponent : Int) : 0 < (inSteps units exponent).2 := by
  rw [inSteps_eq]
  split
  · exact Nat.mul_pos unitsPerOne_pos (ten_pow_pos _)
  · exact unitsPerOne_pos

/-- A count of steps is as much of a magnitude in steps as the numeral is of the magnitude. -/
theorem units_le_iff (units count : Nat) (exponent : Int)
    : (⟨count, exponent⟩ : Numeral).units ≤ units
      ↔ count ≤ (inSteps units exponent).1 / (inSteps units exponent).2 := by
  have ho : (0 : ℚ) < unitsPerOne := by exact_mod_cast unitsPerOne_pos
  rw [Nat.le_div_iff_mul_le (inSteps_den_pos units exponent)]
  rw [inSteps_eq, Numeral.units]
  split
  · rename_i h
    have he : (10 : ℚ) ^ exponent = 10 ^ exponent.toNat := by
      rw [← zpow_natCast, Int.toNat_of_nonneg h]
    dsimp only
    rw [he, ← Nat.cast_le (α := ℚ)]
    push_cast
    rw [mul_assoc, mul_comm ((10 : ℚ) ^ _)]
  · rename_i h
    have he : (10 : ℚ) ^ exponent = ((10 : ℚ) ^ (-exponent).toNat)⁻¹ := by
      rw [← zpow_natCast, Int.toNat_of_nonneg (by omega), ← zpow_neg, neg_neg]
    have hp : (0 : ℚ) < 10 ^ (-exponent).toNat := by positivity
    dsimp only
    rw [he, ← Nat.cast_le (α := ℚ)]
    push_cast
    rw [mul_right_comm, ← div_eq_mul_inv, div_le_iff₀ hp]

/-- Of two numerals at one place the one with more digits is rounded to no less. -/
theorem nearest_mono_digits {few many : Nat} (exponent : Int) (h : few ≤ many)
    : (⟨few, exponent⟩ : Numeral).nearest ≤ (⟨many, exponent⟩ : Numeral).nearest := by
  unfold Numeral.nearest
  split
  · refine nearest_mono one_pos one_pos ?_
    simp only [Nat.cast_one, div_one]
    gcongr
  · refine nearest_mono (ten_pow_pos _) (ten_pow_pos _) ?_
    gcongr

theorem nearest_le_of_units_le {n : Numeral} {units : Nat} (exact : spacing units ∣ units)
    (h : n.units ≤ units) : n.nearest ≤ units := by
  by_cases sign : 0 ≤ n.exponent
  · rw [n.nearest_eq one_pos (Numeral.units_of_nonneg sign)]
    exact nearest_le_of_div_le one_pos exact (by rwa [Numeral.units_of_nonneg sign])
  · have negative := not_le.1 sign
    rw [n.nearest_eq (ten_pow_pos _) (Numeral.units_of_neg negative)]
    exact nearest_le_of_div_le (ten_pow_pos _) exact (by rwa [Numeral.units_of_neg negative])

theorem le_nearest_of_le_units {n : Numeral} {units : Nat} (exact : spacing units ∣ units)
    (h : units ≤ n.units) : units ≤ n.nearest := by
  by_cases sign : 0 ≤ n.exponent
  · rw [n.nearest_eq one_pos (Numeral.units_of_nonneg sign)]
    exact le_nearest_of_le_div one_pos exact (by rwa [Numeral.units_of_nonneg sign])
  · have negative := not_le.1 sign
    rw [n.nearest_eq (ten_pow_pos _) (Numeral.units_of_neg negative)]
    exact le_nearest_of_le_div (ten_pow_pos _) exact (by rwa [Numeral.units_of_neg negative])

/-- The numeral that is found at a place reads back to the magnitude. -/
theorem nearest_of_numeralAt? {units : Nat} {exponent : Int} {n : Numeral}
    (found : numeralAt? units exponent = some n)
    : n.nearest = units ∧ n.exponent = exponent := by
  unfold numeralAt? at found
  dsimp only at found
  split at found
  · split at found
    · rename_i above
      cases found
      exact ⟨above.1, rfl⟩
    · rename_i below _
      cases found
      exact ⟨below, rfl⟩
  · split at found
    · rename_i above
      cases found
      exact ⟨above, rfl⟩
    · contradiction

/-- When some numeral at a place reads back to a magnitude, one is found there. A numeral at most
as large lies below the lower neighbour of the magnitude, and a larger one above the upper
neighbour, so that neighbour is rounded to the magnitude as well.
-/
theorem exists_numeralAt? {units count : Nat} {exponent : Int} (exact : spacing units ∣ units)
    (back : (⟨count, exponent⟩ : Numeral).nearest = units)
    : ∃ n, numeralAt? units exponent = some n := by
  obtain ⟨low, hl⟩ : ∃ low, low = (inSteps units exponent).1 / (inSteps units exponent).2 :=
    ⟨_, rfl⟩
  have neighbour : (⟨low, exponent⟩ : Numeral).nearest = units
      ∨ (⟨low + 1, exponent⟩ : Numeral).nearest = units := by
    by_cases under : count ≤ low
    · left
      refine le_antisymm (nearest_le_of_units_le exact ?_) ?_
      · exact (units_le_iff units low exponent).2 hl.le
      · rw [← back]
        exact nearest_mono_digits exponent under
    · right
      refine le_antisymm ?_ (le_nearest_of_le_units exact ?_)
      · rw [← back]
        exact nearest_mono_digits exponent (by omega)
      · by_contra less
        have := (units_le_iff units (low + 1) exponent).1 (not_le.1 less).le
        omega
  unfold numeralAt?
  dsimp only
  rw [← hl]
  split
  · split <;> exact ⟨_, rfl⟩
  · rename_i below
    rw [if_pos (neighbour.resolve_left below)]
    exact ⟨_, rfl⟩

-----------------------------------------------------------------------------------------
-- The search over the places
-----------------------------------------------------------------------------------------

/-- The numeral with the finest last place is exact. -/
theorem nearest_finest {units : Nat} (exact : spacing units ∣ units)
    : (⟨units * Nat.pow 5 1074, -1074⟩ : Numeral).nearest = units := by
  obtain ⟨places, hp⟩ : ∃ places, places = 1074 := ⟨_, rfl⟩
  have value : ((units * 1 : Nat) : ℚ) / (1 : Nat)
      = (⟨units * 5 ^ places, -(places : Int)⟩ : Numeral).units := by
    have ten : (10 : ℚ) ^ places = 5 ^ places * 2 ^ places := by rw [← mul_pow]; norm_num
    rw [Numeral.units, unitsPerOne_eq hp, zpow_neg, zpow_natCast, ten]
    push_cast
    field_simp
  have h := Numeral.nearest_eq _ one_pos value
  rw [nearest_mul one_pos exact] at h
  have place : (-1074 : Int) = -(places : Int) := by omega
  rw [place, ← hp, Nat.pow_eq]
  exact h

/-- The numeral that the search ends with reads back, by induction on the places. -/
theorem nearest_shortestFrom {units : Nat} (exact : spacing units ∣ units) (places : Nat)
    : (shortestFrom units places).nearest = units := by
  induction places with
  | zero => exact nearest_finest exact
  | succ places ih =>
      unfold shortestFrom
      cases found : numeralAt? units ((places + 1 : Nat) - 1074) with
      | none => exact ih
      | some n => exact (nearest_of_numeralAt? found).1

/-- The search never passes a place at which some numeral reads back. -/
theorem le_exponent_shortestFrom {units count place : Nat} (exact : spacing units ∣ units)
    (back : (⟨count, (place + 1 : Nat) - 1074⟩ : Numeral).nearest = units) {places : Nat}
    (start : place < places)
    : ((place + 1 : Nat) - 1074 : Int) ≤ (shortestFrom units places).exponent := by
  induction places with
  | zero => contradiction
  | succ places ih =>
      unfold shortestFrom
      cases found : numeralAt? units ((places + 1 : Nat) - 1074) with
      | some n =>
          rw [Option.getD_some, (nearest_of_numeralAt? found).2]
          omega
      | none =>
          refine ih (Nat.lt_of_le_of_ne (Nat.le_of_lt_succ start) ?_)
          rintro rfl
          obtain ⟨n, hn⟩ := exists_numeralAt? exact back
          rw [found] at hn
          contradiction

theorem nearest_shortest {units : Nat} (exact : spacing units ∣ units)
    : (shortest units).nearest = units :=
  nearest_shortestFrom exact _

/-- A magnitude of at least a sixteenth of one starts its search before the point. -/
theorem le_decimalCeiling {units exponent : Nat} (he : exponent = 1070)
    (large : 2 ^ exponent ≤ units) : 0 ≤ decimalCeiling units := by
  have some : units ≠ 0 := by
    have := Nat.two_pow_pos exponent
    omega
  have log : exponent ≤ units.log2 := (Nat.le_log2 some).2 large
  unfold decimalCeiling
  omega

/-- The nearest number of a decimal with one place after the point needs no second one. -/
theorem neg_one_le_exponent_shortest {units tenths : Nat} (exact : spacing units ∣ units)
    (some : units ≠ 0) (back : (⟨tenths, -1⟩ : Numeral).nearest = units)
    : -1 ≤ (shortest units).exponent := by
  have positive : 1 ≤ tenths := by
    by_contra zero
    obtain rfl : tenths = 0 := by omega
    have value : (⟨0, -1⟩ : Numeral).units ≤ (0 : Nat) := by simp [Numeral.units]
    have := nearest_le_of_units_le (dvd_zero (spacing 0)) value
    omega
  have large : 2 ^ 1070 ≤ units := by
    obtain ⟨exponent, he⟩ : ∃ exponent, exponent = 1070 := ⟨_, rfl⟩
    have sum : exponent + 4 = 1074 := by omega
    rw [← he, ← back]
    refine le_nearest_of_le_units (spacing_two_pow_dvd exponent) ?_
    rw [Numeral.units, unitsPerOne_eq sum]
    have one : (1 : ℚ) ≤ tenths := by exact_mod_cast positive
    push_cast
    rw [pow_add]
    have power : (0 : ℚ) < 2 ^ exponent := by positivity
    norm_num
    nlinarith
  have ceiling := le_decimalCeiling rfl large
  have place : (-1 : Int) = (1072 + 1 : Nat) - 1074 := rfl
  rw [place] at back ⊢
  exact le_exponent_shortestFrom exact back (by omega)

-----------------------------------------------------------------------------------------
-- Texts
-----------------------------------------------------------------------------------------

/-- A numeral is written with as many places after the point as it has. -/
theorem toText_eq_positional (n : Numeral)
    : ∃ m, n.toText = positional m (-n.exponent).toNat
        ∧ (⟨m, -((-n.exponent).toNat : Int)⟩ : Numeral).units = n.units := by
  unfold Numeral.toText
  split
  · rename_i whole
    have places : (-n.exponent).toNat = 0 := by omega
    have power : (10 : ℚ) ^ n.exponent = 10 ^ n.exponent.toNat := by
      rw [← zpow_natCast, Int.toNat_of_nonneg whole]
    exact ⟨_, by rw [places], by simp [Numeral.units, places, power]⟩
  · rename_i part
    have places : -((-n.exponent).toNat : Int) = n.exponent := by omega
    exact ⟨n.digits, rfl, by rw [places]⟩

/-- The text of a number without its sign, and the numeral that it is. -/
theorem toText_finite (negative : Bool) {units : Nat} (h : Representable units)
    : ∃ m places, (Binary64.finite negative units h).toText
          = signText negative ++ positional m places
        ∧ (⟨m, -(places : Int)⟩ : Numeral).toBinary64 negative = .finite negative units h
        ∧ (places : Int) ≤ if units = 0 then 0 else max 0 (-(shortest units).exponent) := by
  by_cases none : units = 0
  · subst none
    refine ⟨0, 0, rfl, ?_, by simp⟩
    simp [Numeral.toBinary64, zero]
  · obtain ⟨m, shown, value⟩ := toText_eq_positional (shortest units)
    refine ⟨m, (-(shortest units).exponent).toNat, by simp [toText, none, shown], ?_, ?_⟩
    · rw [Numeral.toBinary64_congr negative value]
      exact Numeral.toBinary64_of_nearest negative h (nearest_shortest h.dvd)
    · rw [if_neg none]
      omega

/-- The shortest text of a finite number reads back to it. -/
theorem read?_toText {x : Binary64} (finite : x.isFinite) : read? x.toText = some x := by
  cases x with
  | finite negative units h =>
      obtain ⟨m, places, shown, value, _⟩ := toText_finite negative h
      rw [shown, read?_append (isSign_signText negative) (positional_start m places),
        Numeral.read?_positional, Option.map_some, mem_signText, value]
  | _ => contradiction

end Binary64
end Gcode.Number
