import Gcode.Number.Stripped
import Gcode.Proofs.Number.Fixed
import Gcode.Proofs.Word.Equality

/-! Texts with a fixed number of decimal places, as decimals.
Such a text denotes the nearest multiple of its last place, and it is zero without a sign or a
decimal with no superfluous zero before its point.
-/

namespace Gcode.Number

open Text

-----------------------------------------------------------------------------------------
-- The value
-----------------------------------------------------------------------------------------

/-- The exact value of a numeral. -/
def Numeral.value (n : Numeral) : ℚ :=
  n.digits * 10 ^ n.exponent

/-- The exact value that a decimal text denotes. -/
def decimalValue? (text : List Char) : Option ℚ :=
  let (negative, body) := splitSign text
  (Numeral.read? body).map fun n => if negative then -n.value else n.value

/-- The exact value of a finite number. -/
def Binary64.value (x : Binary64) : ℚ :=
  (x.signedUnits?.getD 0 : Int) / Binary64.unitsPerOne

/-- A whole number of decimal steps that no other multiple of the step is closer to a value than;
it is even if another one is as close.
-/
structure IsNearestMultiple (places : Nat) (steps : Int) (value : ℚ) : Prop where
  nearest
    : ∀ other : Int, |(steps : ℚ) / 10 ^ places - value| ≤ |(other : ℚ) / 10 ^ places - value|
  even
    : ∀ other : Int,
        other ≠ steps
        → |(other : ℚ) / 10 ^ places - value| = |(steps : ℚ) / 10 ^ places - value|
        → steps % 2 = 0

/-- The distance to a value, counted in steps. -/
theorem abs_div_sub (steps : Int) (places : Nat) (value : ℚ)
    : |(steps : ℚ) / 10 ^ places - value| = |(steps : ℚ) - value * 10 ^ places| / 10 ^ places := by
  have hp : (0 : ℚ) < 10 ^ places := by positivity
  rw [← abs_of_pos hp, ← abs_div, abs_of_pos hp]
  congr 1
  field_simp

/-- Also of the negative numbers none is closer than the rounded quotient. -/
theorem abs_roundHalfEven_sub_le_abs_sub_int (num : Nat) {den : Nat} (positive : 0 < den)
    (other : Int) : |(roundHalfEven num den : ℚ) - num / den| ≤ |(other : ℚ) - num / den| := by
  cases other with
  | ofNat n => exact abs_roundHalfEven_sub_le_abs_sub num positive n
  | negSucc n =>
      have zero := abs_roundHalfEven_sub_le_abs_sub num positive 0
      have quotient : (0 : ℚ) ≤ num / den := by positivity
      have below : ((Int.negSucc n : Int) : ℚ) ≤ 0 := by exact_mod_cast (Int.negSucc_lt_zero n).le
      rw [Nat.cast_zero, zero_sub, abs_neg, abs_of_nonneg quotient] at zero
      have far := neg_le_abs ((Int.negSucc n : Int) - (num : ℚ) / den)
      linarith

/-- The value with the other sign has the other nearest multiple. -/
theorem IsNearestMultiple.neg {places : Nat} {steps : Int} {value : ℚ}
    (h : IsNearestMultiple places steps value) : IsNearestMultiple places (-steps) (-value) := by
  have mirror (n : Int)
      : |(n : ℚ) / 10 ^ places - -value| = |((-n : Int) : ℚ) / 10 ^ places - value| := by
    rw [← abs_neg]
    congr 1
    push_cast
    ring
  constructor
  · intro other
    rw [mirror, mirror, neg_neg]
    exact h.nearest (-other)
  · intro other different same
    rw [mirror, mirror, neg_neg] at same
    have even := h.even (-other) (by omega) same
    omega

theorem isNearestMultiple_roundHalfEven (num places : Nat) {den : Nat} (positive : 0 < den)
    : IsNearestMultiple places (roundHalfEven (num * 10 ^ places) den) (num / den) := by
  have scaled : (num : ℚ) / den * 10 ^ places = ((num * 10 ^ places : Nat) : ℚ) / den := by
    push_cast
    ring
  constructor
  · intro other
    rw [abs_div_sub, abs_div_sub, scaled]
    refine div_le_div_of_nonneg_right ?_ (by positivity)
    exact abs_roundHalfEven_sub_le_abs_sub_int _ positive other
  · intro other different same
    rw [abs_div_sub, abs_div_sub, scaled, div_left_inj' (by positivity)] at same
    have close := abs_roundHalfEven_sub_le (num * 10 ^ places) positive
    have apart := one_le_abs_sub_add_abs_sub_int different
      (((num * 10 ^ places : Nat) : ℚ) / den)
    rw [same, Int.cast_natCast] at apart
    have tie := le_antisymm close (by linarith)
    have even := even_roundHalfEven_of_tie _ positive tie
    omega

-----------------------------------------------------------------------------------------
-- The form
-----------------------------------------------------------------------------------------

/-- A decimal with a fixed number of digits after its point and no superfluous zero before it. -/
structure FixedDecimal (places : Nat) where
  negative : Bool
  whole : List Char
  fraction : List Char
  whole_ne_nil : whole ≠ []
  isDigit_whole : ∀ c ∈ whole, c.isDigit
  zero_alone : whole.head? = some '0' → whole = ['0']
  isDigit_fraction : ∀ c ∈ fraction, c.isDigit
  length_fraction : fraction.length = places

/-- There is no point where no digits come after it. -/
def FixedDecimal.text {places : Nat} (decimal : FixedDecimal places) : List Char :=
  signText decimal.negative
    ++ (decimal.whole ++ if places = 0 then [] else '.' :: decimal.fraction)

/-- Only the digits of zero start with a zero, by induction on the number of digits. -/
theorem eq_zero_of_head?_digits {n : Nat} (zero : (digits n).head? = some '0') : n = 0 := by
  induction n using Nat.strongRecOn with
  | ind n ih =>
    by_cases small : n < 10
    · have single : ∀ n < 10, Nat.digitChar n = '0' → n = 0 := by decide
      rw [digits, Nat.toDigits_of_lt_base small] at zero
      exact single n small (Option.some.inj zero)
    · have front : digits n = digits (n / 10) ++ [Nat.digitChar (n % 10)] :=
        Nat.toDigits_of_base_le (by decide) (not_lt.1 small)
      rw [front, List.head?_append_of_ne_nil _ (digits_ne_nil _)] at zero
      have none := ih (n / 10) (by omega) zero
      omega

/-- The decimal of a number of steps. -/
def FixedDecimal.ofSteps (negative : Bool) (steps places : Nat) : FixedDecimal places where
  negative
  whole := digits (steps / 10 ^ places)
  fraction := if places = 0 then [] else paddedDigits places (steps % 10 ^ places)
  whole_ne_nil := digits_ne_nil _
  isDigit_whole _ := isDigit_of_mem_digits
  zero_alone zero := by
    rw [eq_zero_of_head?_digits zero]
    rfl
  isDigit_fraction c member := by
    split at member
    · contradiction
    · exact isDigit_of_mem_paddedDigits member
  length_fraction := by
    split
    · rename_i none
      exact none.symm
    · rename_i some
      exact length_paddedDigits (Nat.pos_of_ne_zero some)
        (Nat.mod_lt _ (Binary64.ten_pow_pos places))

theorem FixedDecimal.text_ofSteps (negative : Bool) (steps places : Nat)
    : (ofSteps negative steps places).text = signText negative ++ positional steps places := by
  rw [text, positional_eq]
  by_cases none : places = 0
  · simp [ofSteps, none]
  · simp [ofSteps, none]

-----------------------------------------------------------------------------------------
-- Numbers
-----------------------------------------------------------------------------------------

namespace Binary64

attribute [local irreducible] unitsPerOne overflow

variable {x : Binary64}

/-- A finite number as a number of decimal steps, rounded half to even. -/
def signedSteps (x : Binary64) (places : Nat) : Int :=
  match x with
  | .finite negative units _ =>
      if negative then -(decimalSteps units places : Int) else decimalSteps units places
  | _ => 0

theorem isNearestMultiple_signedSteps (places : Nat) (finite : x.isFinite)
    : IsNearestMultiple places (x.signedSteps places) x.value := by
  cases x with
  | finite negative units h =>
      have magnitude : IsNearestMultiple places (decimalSteps units places)
          (units / unitsPerOne) :=
        isNearestMultiple_roundHalfEven units places unitsPerOne_pos
      cases negative with
      | false => simpa [signedSteps, value, signedUnits?] using magnitude
      | true => simpa [signedSteps, value, signedUnits?, neg_div] using magnitude.neg
  | _ => contradiction

theorem decimalValue?_append {body : List Char} {n : Numeral} (negative : Bool)
    (start : ∃ c rest, body = c :: rest ∧ (isDecimalDigit c ∨ c = '.'))
    (read : Numeral.read? body = some n)
    : decimalValue? (signText negative ++ body) = some (if negative then -n.value else n.value) := by
  rw [decimalValue?, splitSign_append (isSign_signText negative)
    (stops_isSignChar_of_start start), mem_signText]
  simp only [read, Option.map_some]

theorem value_places (steps places : Nat)
    : (⟨steps, -(places : Int)⟩ : Numeral).value = steps / 10 ^ places := by
  rw [Numeral.value, zpow_neg, zpow_natCast, div_eq_mul_inv]

theorem decimalValue?_toFixed (places : Nat) (finite : x.isFinite)
    : decimalValue? (x.toFixed places) = some ((x.signedSteps places : ℚ) / 10 ^ places) := by
  cases x with
  | finite negative units h =>
      rw [toFixed, signedSteps]
      split
      · rename_i zero
        have whole := decimalValue?_append false (zeroText_start places) (read?_zeroText places)
        rw [value_places] at whole
        rw [zero]
        simpa [signText] using whole
      · rw [decimalValue?_append negative (positional_start _ _) (Numeral.read?_positional _ _),
          value_places]
        cases negative <;> simp [neg_div]
  | _ => contradiction

/-- The text of a number that is rounded to zero has no sign; any other has that of the number. -/
theorem exists_fixedDecimal (places : Nat) (finite : x.isFinite) (some : x.signedSteps places ≠ 0)
    : ∃ decimal : FixedDecimal places, x.toFixed places = decimal.text
        ∧ (decimal.negative ↔ x.signedSteps places < 0) := by
  cases x with
  | finite negative units h =>
      have steps : decimalSteps units places ≠ 0 := by
        intro zero
        exact some (by simp [signedSteps, zero])
      refine ⟨.ofSteps negative (decimalSteps units places) places, ?_, ?_⟩
      · rw [FixedDecimal.text_ofSteps, toFixed, if_neg steps]
      · cases negative with
        | false => simp [FixedDecimal.ofSteps, signedSteps]
        | true =>
            simp only [FixedDecimal.ofSteps, signedSteps, if_true, true_iff]
            omega
  | _ => contradiction

theorem toFixed_of_signedSteps (places : Nat) (finite : x.isFinite)
    (none : x.signedSteps places = 0) : x.toFixed places = zeroText places := by
  cases x with
  | finite negative units h =>
      have steps : decimalSteps units places = 0 := by
        cases negative <;> simpa [signedSteps] using none
      rw [toFixed, if_pos steps]
  | _ => contradiction

-----------------------------------------------------------------------------------------
-- Zero told from the text
-----------------------------------------------------------------------------------------

theorem positional_zero (places : Nat)
    : positional 0 places = '0' :: if places = 0 then [] else '.' :: List.replicate places '0' := by
  rw [positional_eq]
  by_cases none : places = 0
  · simp [none, digits]
  · obtain ⟨more, rfl⟩ := Nat.exists_eq_succ_of_ne_zero none
    simp [paddedDigits, digits, List.replicate_succ']

theorem stripZero_positional (negative : Bool) (places : Nat)
    : stripZero (signText negative ++ positional 0 places) = zeroText places := by
  have body : (signText negative ++ positional 0 places).dropWhile (fun c => c == '+' || c == '-')
      = positional 0 places :=
    dropWhile_run ((isSign_signText negative).forall rfl rfl)
      (stops_isSignChar_of_start (positional_start 0 places))
  rw [stripZero, body, positional_zero, zeroText]
  by_cases none : places = 0
  · simp [none]
  · simp [none]

/-- A number that is not rounded to zero does not denote zero afterwards: it would be rounded to
zero again.
-/
theorem nearest_decimalSteps_ne_zero {units places : Nat} (exact : spacing units ∣ units)
    (some : decimalSteps units places ≠ 0)
    : nearest (decimalSteps units places * unitsPerOne) (10 ^ places) ≠ 0 := by
  intro zero
  have again := decimalSteps_nearest places exact
  have none := roundHalfEven_mul 0 unitsPerOne unitsPerOne_pos
  rw [zero, decimalSteps, Nat.zero_mul] at again
  rw [Nat.zero_mul] at none
  exact some (again.symm.trans none)

theorem eq_zero_iff {negative : Bool} {units : Nat} {h : Representable units}
    : (Binary64.finite negative units h).eq (.zero false) ↔ units = 0 := by
  constructor
  · intro same
    rcases eq_or_zeros_of_eq same with same | ⟨_, _, _, _, same, _⟩
    · exact (Binary64.finite.inj same).2
    · exact (Binary64.finite.inj same).2
  · rintro rfl
    refine eq_iff.2 ⟨0, ?_, rfl⟩
    cases negative <;> rfl

theorem toStripped_of_read? {again : Binary64} {places : Nat}
    (read : read? (x.toRounded places) = some again)
    : x.toStripped places
      = if again.eq (.zero false) then stripZero (x.toRounded places) else x.toRounded places := by
  rw [toStripped, read]

/-- Whether a text is zero may be told from the steps or from the text. -/
theorem toStripped_eq (x : Binary64) (places : Nat) : x.toStripped places = x.toFixed places := by
  cases x with
  | nan =>
      have read : read? (Binary64.nan.toRounded places) = some .nan := by
        change read? Binary64.nan.toText = _
        decide +kernel
      rw [toStripped_of_read? read]
      rfl
  | infinity negative =>
      have read : read? ((Binary64.infinity negative).toRounded places)
          = some (.infinity negative) := by
        change read? (Binary64.infinity negative).toText = _
        cases negative <;> decide +kernel
      have large : ¬ (Binary64.infinity negative).eq (.zero false) := by
        cases negative <;> decide +kernel
      rw [toStripped_of_read? read, if_neg large]
      rfl
  | finite negative units h =>
      obtain ⟨steps, hs⟩ : ∃ steps, steps = decimalSteps units places := ⟨_, rfl⟩
      have shown : (Binary64.finite negative units h).toRounded places
          = signText negative ++ positional steps places := by rw [hs]; rfl
      have read := read?_append (isSign_signText negative) (positional_start steps places)
      rw [Numeral.read?_positional, Option.map_some, mem_signText, ← shown] at read
      rw [toStripped_of_read? read, shown, toFixed, ← hs]
      by_cases none : steps = 0
      · have zero : (⟨0, -(places : Int)⟩ : Numeral).toBinary64 negative = .zero negative := rfl
        have isZero : (Binary64.zero negative).eq (.zero false) := eq_zero_iff.2 rfl
        rw [none, zero, if_pos isZero, if_pos rfl]
        exact stripZero_positional negative places
      · have some : ¬ ((⟨steps, -(places : Int)⟩ : Numeral).toBinary64 negative).eq
            (.zero false) := by
          rw [hs] at none ⊢
          rw [toBinary64_neg_places, ofRatio_of_nearest negative
            ⟨spacing_dvd_nearest _ _, nearest_decimalSteps_lt places h⟩ rfl, eq_zero_iff]
          exact nearest_decimalSteps_ne_zero h.dvd none
        rw [if_neg some, if_neg none]

end Binary64
end Gcode.Number
