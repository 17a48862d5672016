import Gcode.Proofs.Number.Code
import Gcode.Proofs.Number.FixedForm

/-! The form of codes.
A number nearest to a whole number of tenths is written with two digits or more, and with one digit
at most after its point. Two such numbers have the same text only if they are the same.
-/

namespace Gcode.Number

-----------------------------------------------------------------------------------------
-- The form
-----------------------------------------------------------------------------------------

/-- A decimal with two digits or more, and perhaps a point and one digit after them. The first digit
is a zero only where there are no more than two.
-/
structure CodeDecimal where
  whole : List Char
  tenth : Option Char
  two_le_length : 2 ≤ whole.length
  isDigit_whole : ∀ c ∈ whole, c.isDigit
  length_of_zero : whole.head? = some '0' → whole.length = 2
  isDigit_tenth : ∀ c, tenth = some c → c.isDigit

/-- There is no point where no digit comes after it. -/
def CodeDecimal.text (decimal : CodeDecimal) : List Char :=
  decimal.whole ++ decimal.tenth.elim [] fun c => ['.', c]

theorem length_digits_le_one_iff {n : Nat} : (digits n).length ≤ 1 ↔ n < 10 :=
  Nat.length_toDigits_le_iff (by decide) one_pos

theorem paddedDigits_two_of_lt {n : Nat} (small : n < 10) : paddedDigits 2 n = '0' :: digits n := by
  have one : (digits n).length = 1 :=
    le_antisymm (length_digits_le_one_iff.2 small) (List.length_pos_iff.2 (digits_ne_nil n))
  rw [paddedDigits, one]
  rfl

theorem paddedDigits_two_of_le {n : Nat} (large : 10 ≤ n) : paddedDigits 2 n = digits n := by
  have two : ¬ (digits n).length ≤ 1 := fun one => absurd (length_digits_le_one_iff.1 one) (by omega)
  have none : 2 - (digits n).length = 0 := by omega
  rw [paddedDigits, none]
  rfl

theorem le_length_paddedDigits (width n : Nat) : width ≤ (paddedDigits width n).length := by
  rw [paddedDigits, List.length_append, List.length_replicate]
  omega

theorem length_of_head?_paddedDigits_two {n : Nat} (zero : (paddedDigits 2 n).head? = some '0')
    : (paddedDigits 2 n).length = 2 := by
  by_cases small : n < 10
  · have one := length_digits_le_one_iff.2 small
    have some := List.length_pos_iff.2 (digits_ne_nil n)
    rw [paddedDigits_two_of_lt small, List.length_cons]
    omega
  · rw [paddedDigits_two_of_le (not_lt.1 small)] at zero
    have none := eq_zero_of_head?_digits zero
    omega

theorem isDigit_digitChar_mod (n : Nat) : (Nat.digitChar (n % 10)).isDigit := by
  have all : ∀ n < 10, (Nat.digitChar n).isDigit := by decide
  exact all _ (Nat.mod_lt _ (by decide))

/-- The digit after the point, unless there are only ones. -/
def tenthDigit? (steps places : Nat) : Option Char :=
  if places = 0 then none else some (Nat.digitChar (steps % 10))

theorem isDigit_of_tenthDigit? {steps places : Nat} {c : Char}
    (given : tenthDigit? steps places = some c) : c.isDigit := by
  unfold tenthDigit? at given
  split at given
  · contradiction
  · rw [← Option.some.inj given]
    exact isDigit_digitChar_mod steps

/-- The decimal of a number of ones or of tenths. -/
def CodeDecimal.ofSteps (steps places : Nat) : CodeDecimal where
  whole := paddedDigits 2 (steps / 10 ^ places)
  tenth := tenthDigit? steps places
  two_le_length := le_length_paddedDigits 2 _
  isDigit_whole _ := isDigit_of_mem_paddedDigits
  length_of_zero := length_of_head?_paddedDigits_two
  isDigit_tenth _ := isDigit_of_tenthDigit?

theorem CodeDecimal.text_ofSteps_zero (steps : Nat)
    : (ofSteps steps 0).text = paddedDigits 2 steps := by
  simp [text, ofSteps, tenthDigit?]

theorem CodeDecimal.text_ofSteps_one (steps : Nat)
    : (ofSteps steps 1).text = paddedDigits 2 (steps / 10) ++ '.' :: paddedDigits 1 (steps % 10) := by
  have small : steps % 10 < 10 := Nat.mod_lt _ (by decide)
  have digit : digits (steps % 10) = [Nat.digitChar (steps % 10)] := Nat.toDigits_of_lt_base small
  simp [text, ofSteps, tenthDigit?, paddedDigits, digit]

-----------------------------------------------------------------------------------------
-- Numbers
-----------------------------------------------------------------------------------------

namespace Binary64

attribute [local irreducible] unitsPerOne overflow

variable {x y : Binary64}

theorem signedUnits?_ten : ten.signedUnits? = some (10 * unitsPerOne) := by
  decide +kernel

theorem nearest_hundred_tenths : (⟨100, -1⟩ : Numeral).nearest = 10 * unitsPerOne := by
  decide +kernel

theorem nearest_ninetyNine_tenths : (⟨99, -1⟩ : Numeral).nearest < 10 * unitsPerOne := by
  decide +kernel

/-- The number nearest to tenths is below ten just where there are less than a hundred of them:
between 9.9 and ten there is no other such number.
-/
theorem compare?_ten_iff {tenths : Nat} (h : Representable (⟨tenths, -1⟩ : Numeral).nearest)
    : (Binary64.finite false (⟨tenths, -1⟩ : Numeral).nearest h).compare? ten = some .lt
      ↔ tenths < 100 := by
  have own : (Binary64.finite false (⟨tenths, -1⟩ : Numeral).nearest h).compare? ten
      = some (compare ((⟨tenths, -1⟩ : Numeral).nearest : Int) (10 * unitsPerOne)) := by
    rw [compare?, signedUnits?_ten]
    rfl
  have less : (⟨tenths, -1⟩ : Numeral).nearest < 10 * unitsPerOne ↔ tenths < 100 := by
    constructor
    · intro below
      by_contra many
      have least := nearest_mono_digits (-1) (not_lt.1 many)
      rw [nearest_hundred_tenths] at least
      omega
    · intro few
      exact (nearest_mono_digits (-1) (Nat.le_of_lt_succ few)).trans_lt nearest_ninetyNine_tenths
  rw [own, Option.some.injEq, Int.compare_eq_lt, ← less]
  omega

/-- The shortest text of a number nearest to tenths is one of ones or of tenths. -/
theorem IsCode.exists_toText (h : x.IsCode)
    : ∃ steps places, places ≤ 1 ∧ x.toText = positional steps places
        ∧ (x.compare? ten = some .lt ↔ steps / 10 ^ places < 10) := by
  obtain ⟨tenths, exact, rfl⟩ := h.exists_finite
  obtain ⟨steps, places, shown, value, few⟩ := toText_finite false exact
  have few : places ≤ 1 := by
    split at few
    · omega
    · rename_i some
      have least := neg_one_le_exponent_shortest exact.dvd some rfl
      omega
  -- the same number in tenths
  have scaled : (⟨steps * 10 ^ (1 - places), -1⟩ : Numeral).units
      = (⟨steps, -(places : Int)⟩ : Numeral).units := by
    rcases Nat.le_one_iff_eq_zero_or_eq_one.1 few with rfl | rfl
    · exact Numeral.units_tenths steps
    · simp
  rw [← Numeral.toBinary64_congr false scaled] at value
  obtain ⟨again, same⟩ := Numeral.toBinary64_of_isFinite (by rw [value]; rfl)
  have below := compare?_ten_iff again
  rw [← same, value] at below
  refine ⟨steps, places, few, shown, below.trans ?_⟩
  rcases Nat.le_one_iff_eq_zero_or_eq_one.1 few with rfl | rfl <;> simp <;> omega

/-- The text of a code has two digits or more and one digit at most after its point. -/
theorem IsCode.exists_codeDecimal (h : x.IsCode)
    : ∃ decimal : CodeDecimal, x.toCode = decimal.text := by
  obtain ⟨steps, places, few, shown, below⟩ := h.exists_toText
  have padded (tail : List Char)
      : (if x.compare? ten = some .lt then '0' :: (digits (steps / 10 ^ places) ++ tail)
          else digits (steps / 10 ^ places) ++ tail)
        = paddedDigits 2 (steps / 10 ^ places) ++ tail := by
    split
    · rename_i less
      rw [paddedDigits_two_of_lt (below.1 less), List.cons_append]
    · rename_i large
      rw [paddedDigits_two_of_le (not_lt.1 fun small => large (below.2 small))]
  refine ⟨.ofSteps steps places, ?_⟩
  rw [toCode, shown, positional_eq]
  rcases Nat.le_one_iff_eq_zero_or_eq_one.1 few with rfl | rfl
  · have whole := padded []
    simp only [List.append_nil, Nat.pow_zero, Nat.div_one] at whole
    rw [CodeDecimal.text_ofSteps_zero, if_pos rfl, whole]
  · rw [CodeDecimal.text_ofSteps_one, if_neg one_ne_zero]
    exact padded _

/-- Codes are equal as numbers only if they are the same: none of them has a minus sign. -/
theorem IsCode.eq_iff (left : x.IsCode) (right : y.IsCode) : x.eq y ↔ x = y := by
  constructor
  · intro same
    obtain ⟨_, _, hx⟩ := left.exists_finite
    obtain ⟨_, _, hy⟩ := right.exists_finite
    rcases eq_or_zeros_of_eq same with same | ⟨_, _, _, _, rfl, rfl⟩
    · exact same
    · obtain ⟨rfl, -⟩ := Binary64.finite.inj hx
      obtain ⟨rfl, -⟩ := Binary64.finite.inj hy
      rfl
  · rintro rfl
    exact eq_self left.1

/-- Codes with one text are the same, as the text reads back. -/
theorem IsCode.toCode_inj (left : x.IsCode) (right : y.IsCode) : x.toCode = y.toCode ↔ x = y := by
  constructor
  · intro same
    have read := left.read?_toCode
    rw [same, right.read?_toCode] at read
    exact (Option.some.inj read).symm
  · rintro rfl
    rfl

end Binary64
end Gcode.Number
