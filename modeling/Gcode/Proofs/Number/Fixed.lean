import Gcode.Number.Fixed
import Gcode.Proofs.Number.DecimalText

/-! Texts with a fixed number of decimal places read back.
What is read is the number nearest to the rounded one, and rounding that number to the same places
gives the same text again.
-/

namespace Gcode.Number

open Text

namespace Binary64

-- the arithmetic below must not compute with the 1074 binary digits of one
attribute [local irreducible] unitsPerOne overflow

/-- The number nearest to a finite number that is rounded to some decimal places. What rounds to
zero has no sign.
-/
def roundedTo (places : Nat) : Binary64 → Binary64
  | .finite negative units _ =>
      .ofRatio (negative && decimalSteps units places != 0)
        (decimalSteps units places * unitsPerOne) (10 ^ places)
  | x => x

-----------------------------------------------------------------------------------------
-- Rounding the nearest number again
-----------------------------------------------------------------------------------------

/-- The distance of a magnitude to a number of decimal steps, in steps and in units. -/
theorem abs_steps_sub (steps units places : Nat)
    : |(steps : ℚ) - ((units * 10 ^ places : Nat) : ℚ) / unitsPerOne|
      = |(units : ℚ) - ((steps * unitsPerOne : Nat) : ℚ) / ((10 ^ places : Nat) : ℚ)|
        * (10 ^ places / unitsPerOne) := by
  have ho : (0 : ℚ) < unitsPerOne := by exact_mod_cast unitsPerOne_pos
  have hp : (0 : ℚ) < 10 ^ places := by positivity
  have scale : (0 : ℚ) ≤ 10 ^ places / unitsPerOne := by positivity
  calc |(steps : ℚ) - ((units * 10 ^ places : Nat) : ℚ) / unitsPerOne|
      = |((units : ℚ) - ((steps * unitsPerOne : Nat) : ℚ) / ((10 ^ places : Nat) : ℚ))
          * (10 ^ places / unitsPerOne)| := by
        rw [abs_sub_comm]
        push_cast
        congr 1
        field_simp
    _ = _ := by rw [abs_mul, abs_of_nonneg scale]

/-- The magnitude nearest to a rounded one is at most as far from it as the magnitude itself. -/
theorem abs_steps_sub_nearest_le {units : Nat} (places : Nat) (exact : spacing units ∣ units)
    : let steps := decimalSteps units places
      let again := nearest (steps * unitsPerOne) (10 ^ places)
      |(steps : ℚ) - ((again * 10 ^ places : Nat) : ℚ) / unitsPerOne|
        ≤ |(steps : ℚ) - ((units * 10 ^ places : Nat) : ℚ) / unitsPerOne| := by
  intro steps again
  rw [abs_steps_sub, abs_steps_sub]
  refine mul_le_mul_of_nonneg_right ?_ (by positivity)
  exact abs_nearest_sub_le _ (ten_pow_pos places) exact

/-- Rounding to decimal places, going to the nearest magnitude and rounding again changes nothing
after the first rounding. A tie at the second rounding was a tie at the first one, so the number
of steps is even.
-/
theorem decimalSteps_nearest {units : Nat} (places : Nat) (exact : spacing units ∣ units)
    : decimalSteps (nearest (decimalSteps units places * unitsPerOne) (10 ^ places)) places
      = decimalSteps units places := by
  have first := abs_roundHalfEven_sub_le (units * 10 ^ places) unitsPerOne_pos
  have closer := abs_steps_sub_nearest_le places exact
  refine roundHalfEven_eq_of_abs_sub_le unitsPerOne_pos (closer.trans first) ?_
  intro tie
  have tie' := le_antisymm first (tie.symm.le.trans closer)
  exact even_roundHalfEven_of_tie _ unitsPerOne_pos tie'

/-- Rounding to decimal places moves a magnitude by less than the widest spacing, so the nearest
number is finite.
-/
theorem nearest_decimalSteps_lt {units : Nat} (places : Nat) (h : Representable units)
    : nearest (decimalSteps units places * unitsPerOne) (10 ^ places) < overflow := by
  have ho : (0 : ℚ) < unitsPerOne := by exact_mod_cast unitsPerOne_pos
  have first := abs_roundHalfEven_sub_le (units * 10 ^ places) unitsPerOne_pos
  have closer := abs_nearest_sub_le (decimalSteps units places * unitsPerOne)
    (ten_pow_pos places) h.dvd
  have moved : |(units : ℚ)
        - ((decimalSteps units places * unitsPerOne : Nat) : ℚ) / ((10 ^ places : Nat) : ℚ)|
      ≤ unitsPerOne / 2 := by
    have steps := abs_steps_sub (decimalSteps units places) units places
    change |(decimalSteps units places : ℚ) - _| ≤ _ at first
    rw [steps, mul_div_assoc', div_le_div_iff₀ ho two_pos] at first
    have one : (1 : ℚ) ≤ 10 ^ places := one_le_pow₀ (by norm_num)
    have grow := le_mul_of_one_le_right (abs_nonneg ((units : ℚ)
      - ((decimalSteps units places * unitsPerOne : Nat) : ℚ) / ((10 ^ places : Nat) : ℚ))) one
    linarith
  have bound : (nearest (decimalSteps units places * unitsPerOne) (10 ^ places) : ℚ)
      ≤ (units + unitsPerOne : Nat) := by
    have low := (abs_le.1 moved).1
    have high := (abs_le.1 (closer.trans moved)).2
    push_cast
    linarith
  have bound : nearest (decimalSteps units places * unitsPerOne) (10 ^ places)
      ≤ units + unitsPerOne := by exact_mod_cast bound
  exact bound.trans_lt h.add_unitsPerOne_lt

/-- A rounded finite number and its magnitude, which is finite too. -/
theorem roundedTo_finite {negative : Bool} {units : Nat} (places : Nat) (h : Representable units)
    : ∃ again, (Binary64.finite negative units h).roundedTo places
      = .finite (negative && decimalSteps units places != 0)
          (nearest (decimalSteps units places * unitsPerOne) (10 ^ places)) again :=
  ⟨⟨spacing_dvd_nearest _ _, nearest_decimalSteps_lt places h⟩, ofRatio_of_nearest _ _ rfl⟩

theorem isFinite_roundedTo {x : Binary64} (places : Nat) (finite : x.isFinite)
    : (x.roundedTo places).isFinite := by
  cases x with
  | finite negative units h =>
      obtain ⟨again, same⟩ := roundedTo_finite places h
      rw [same]
      rfl
  | _ => exact finite

/-- A number and the one its text is read as have the same text. -/
theorem toFixed_roundedTo {x : Binary64} (places : Nat) (finite : x.isFinite)
    : (x.roundedTo places).toFixed places = x.toFixed places := by
  cases x with
  | finite negative units h =>
      obtain ⟨again, same⟩ := roundedTo_finite places h
      rw [same, toFixed, toFixed, decimalSteps_nearest places h.dvd]
      split
      · rfl
      · rename_i some
        rw [bne_iff_ne.2 some, Bool.and_true]
  | _ => contradiction

-----------------------------------------------------------------------------------------
-- Reading the text
-----------------------------------------------------------------------------------------

theorem units_neg_places (steps places : Nat)
    : ((steps * unitsPerOne : Nat) : ℚ) / ((10 ^ places : Nat) : ℚ)
      = (⟨steps, -(places : Int)⟩ : Numeral).units := by
  rw [Numeral.units, zpow_neg, zpow_natCast]
  push_cast
  ring

/-- A numeral with some places after the point is read as the number nearest to it. -/
theorem toBinary64_neg_places (negative : Bool) (steps places : Nat)
    : (⟨steps, -(places : Int)⟩ : Numeral).toBinary64 negative
      = .ofRatio negative (steps * unitsPerOne) (10 ^ places) :=
  Numeral.toBinary64_eq_ofRatio _ negative (ten_pow_pos places) (units_neg_places steps places)

/-- What is written for zero reads as a numeral with the value zero. -/
theorem read?_zeroText (places : Nat)
    : Numeral.read? (zeroText places) = some ⟨0, -(places : Int)⟩ := by
  unfold zeroText
  split
  · rename_i none
    rw [none]
    rfl
  · rename_i some
    have zeros : ∀ c ∈ List.replicate places '0', c.isDigit := by
      intro c member
      rw [(List.mem_replicate.1 member).2]
      rfl
    have value := ofDigits_replicate_zero places []
    have h := Numeral.read?_point (by simpa using some) (List.forall_mem_nil _) zeros stops_nil
    simp only [List.nil_append, List.append_nil] at h value
    rw [h, value]
    simp [readExponent?, ofDigits]

theorem toFixed_eq {x : Binary64} (places : Nat) (finite : x.isFinite)
    : x.toFixed places = zeroText places
      ∨ ∃ negative n, x.toFixed places = signText negative ++ positional n places := by
  cases x with
  | finite negative units h =>
      unfold toFixed
      dsimp only
      split
      · exact .inl rfl
      · exact .inr ⟨negative, _, rfl⟩
  | _ => contradiction

theorem zeroText_start (places : Nat)
    : ∃ c rest, zeroText places = c :: rest ∧ (isDecimalDigit c ∨ c = '.') := by
  unfold zeroText
  split
  · exact ⟨'0', [], rfl, .inl (isDecimalDigit_of_isDigit rfl)⟩
  · exact ⟨'.', _, rfl, .inr rfl⟩

theorem positional_start (n places : Nat)
    : ∃ c rest, positional n places = c :: rest ∧ (isDecimalDigit c ∨ c = '.') := by
  have first (m : Nat) : ∃ c rest, digits m = c :: rest ∧ isDecimalDigit c := by
    obtain ⟨c, rest, h⟩ := List.exists_cons_of_ne_nil (digits_ne_nil m)
    exact ⟨c, rest, h, isDecimalDigit_of_isDigit (isDigit_of_mem_digits (h ▸ List.mem_cons_self))⟩
  rw [positional_eq]
  split
  · obtain ⟨c, rest, h, digit⟩ := first n
    exact ⟨c, rest, h, .inl digit⟩
  · obtain ⟨c, rest, h, digit⟩ := first (n / 10 ^ places)
    exact ⟨c, _, by rw [h, List.cons_append], .inl digit⟩

/-- The text with a fixed number of places reads as the number nearest to the rounded one. -/
theorem read?_toFixed {x : Binary64} (places : Nat) (finite : x.isFinite)
    : Binary64.read? (x.toFixed places) = some (x.roundedTo places) := by
  cases x with
  | finite negative units h =>
      unfold toFixed roundedTo
      dsimp only
      split
      · rename_i zero
        have hr := read?_append (.inl rfl) (zeroText_start places)
        rw [List.nil_append] at hr
        rw [hr, read?_zeroText, zero, Option.map_some, toBinary64_neg_places, bne_self_eq_false,
          Bool.and_false]
        rfl
      · rename_i some
        rw [read?_append (isSign_signText negative) (positional_start _ _),
          Numeral.read?_positional, Option.map_some, toBinary64_neg_places, mem_signText,
          bne_iff_ne.2 some, Bool.and_true]
  | _ => contradiction

/-- There is a point in a text with decimal places, so it is no integer. -/
theorem readInt64?_toFixed {x : Binary64} {places : Nat} (finite : x.isFinite)
    (some : places ≠ 0) : readInt64? (x.toFixed places) = none := by
  rcases toFixed_eq places finite with shown | ⟨negative, n, shown⟩
  · rw [shown, zeroText, if_neg some]
    exact readInt64?_eq_none (c := '.') List.mem_cons_self rfl
  · rw [shown]
    refine readInt64?_eq_none (c := '.') ?_ rfl
    rw [splitSign_append (isSign_signText negative)
      (stops_isSignChar_of_start (positional_start n places))]
    exact point_mem_positional n some

end Binary64
end Gcode.Number
