import Gcode.Proofs.Number.FixedForm
import Gcode.Proofs.Number.WholeText

/-! Integers and the texts and numbers that are exactly them.
A text that spells an integer is told by its characters alone, and a number that is an integer by
its exact value. Reading and narrowing give the integer for these texts and numbers, and nothing for
any others.
-/

namespace Gcode.Number

open Text

-----------------------------------------------------------------------------------------
-- Texts
-----------------------------------------------------------------------------------------

/-- A text is digits of ASCII, at least one, with a sign before them perhaps, and denotes an
integer.
-/
def Spells (text : List Char) (n : Int) : Prop :=
  ∃ sign body, text = sign ++ body ∧ IsSign sign ∧ body ≠ [] ∧ (∀ c ∈ body, c.isDigit)
    ∧ n = if '-' ∈ sign then -(ofDigits body : Int) else ofDigits body

theorem exists_sign (text : List Char)
    : ∃ sign, IsSign sign ∧ text = sign ++ (splitSign text).2
        ∧ (splitSign text).1 = decide ('-' ∈ sign) := by
  unfold splitSign
  split
  · exact ⟨['-'], .inr (.inr rfl), rfl, rfl⟩
  · exact ⟨['+'], .inr (.inl rfl), rfl, rfl⟩
  · exact ⟨[], .inl rfl, rfl, rfl⟩

theorem readDigits?_eq_some_iff {text : List Char} {n : Nat}
    : readDigits? text = some n ↔ text ≠ [] ∧ (∀ c ∈ text, c.isDigit) ∧ n = ofDigits text := by
  simp only [readDigits?, List.all_eq_true]
  split
  · rename_i given
    rw [Option.some.injEq]
    exact ⟨fun same => ⟨given.1, given.2, same.symm⟩, fun read => read.2.2.symm⟩
  · rename_i other
    simp only [reduceCtorEq, false_iff]
    exact fun given => other ⟨given.1, given.2.1⟩

theorem readInt?_eq (text : List Char)
    : readInt? text
      = (readDigits? (splitSign text).2).map fun n : Nat =>
          if (splitSign text).1 then -(n : Int) else n := by
  simp only [readInt?]
  cases readDigits? (splitSign text).2 <;> rfl

/-- Exactly the texts that spell an integer are read. -/
theorem readInt?_eq_some_iff {text : List Char} {n : Int}
    : readInt? text = some n ↔ Spells text n := by
  constructor
  · intro read
    rw [readInt?_eq] at read
    obtain ⟨m, digits, value⟩ := Option.map_eq_some_iff.1 read
    obtain ⟨some, all, rfl⟩ := readDigits?_eq_some_iff.1 digits
    obtain ⟨sign, isSign, split, minus⟩ := exists_sign text
    rw [minus] at value
    exact ⟨sign, _, split, isSign, some, all, by simpa using value.symm⟩
  · intro spells
    obtain ⟨sign, body, rfl, isSign, some, all, rfl⟩ := spells
    exact readInt?_append isSign some all

/-- The text of an integer spells it, with a minus sign for a negative integer alone, no plus sign
and no superfluous zeros.
-/
theorem intText_exact (n : Int)
    : Spells (intText n) n
      ∧ ∃ decimal : FixedDecimal 0, intText n = decimal.text ∧ (decimal.negative ↔ n < 0) := by
  refine ⟨readInt?_eq_some_iff.1 (readInt?_intText n), .ofSteps (n < 0) n.natAbs 0, ?_, ?_⟩
  · rw [FixedDecimal.text_ofSteps, positional_eq, if_pos rfl]
    rfl
  · simp [FixedDecimal.ofSteps]

/-- Exactly the texts that spell an integer of 64 bits are read as one. -/
theorem readInt64?_eq_some_iff {text : List Char} {n : Int64}
    : readInt64? text = some n ↔ Spells text n.toInt := by
  rw [readInt64?, Option.bind_eq_some_iff]
  constructor
  · rintro ⟨m, read, fits⟩
    rw [toInt64?_eq_some_iff.1 fits]
    exact readInt?_eq_some_iff.1 read
  · intro spells
    exact ⟨_, readInt?_eq_some_iff.2 spells, toInt64?_toInt n⟩

-----------------------------------------------------------------------------------------
-- Numbers
-----------------------------------------------------------------------------------------

namespace Binary64

attribute [local irreducible] unitsPerOne overflow

variable {x : Binary64}

/-- A finite number with a whole number of units for each one is that integer. -/
theorem toInt?_of_signedUnits? {n : Int} (finite : x.isFinite)
    (signed : x.signedUnits? = some (n * unitsPerOne)) : x.toInt? = some n := by
  have positive : (0 : Int) < unitsPerOne := by exact_mod_cast unitsPerOne_pos
  cases x with
  | finite negative units h =>
      have product : (if negative then -(units : Int) else units) = n * unitsPerOne :=
        Option.some.inj signed
      have magnitude : units = n.natAbs * unitsPerOne := by
        have sizes := congrArg Int.natAbs product
        rw [Int.natAbs_mul, Int.natAbs_natCast] at sizes
        rw [← sizes]
        cases negative <;> simp
      have whole : units % unitsPerOne = 0 := by rw [magnitude, Nat.mul_mod_left]
      have count : units / unitsPerOne = n.natAbs := by
        rw [magnitude, Nat.mul_div_cancel _ unitsPerOne_pos]
      simp only [toInt?, whole, if_true, count, Option.some.injEq]
      cases negative with
      | false =>
          have sign : (0 : Int) ≤ n * unitsPerOne := product ▸ Int.natCast_nonneg units
          have := nonneg_of_mul_nonneg_left sign positive
          simpa using this
      | true =>
          have sign : n * unitsPerOne ≤ (0 : Int) := by
            rw [← product]
            simp
          have := nonpos_of_mul_nonpos_left sign positive
          simp only [if_true]
          omega
  | _ => contradiction

/-- A number is an integer where its exact value is. -/
theorem toInt?_eq_some_iff {n : Int} : x.toInt? = some n ↔ x.isFinite ∧ x.value = n := by
  have one : (unitsPerOne : ℚ) ≠ 0 := by exact_mod_cast unitsPerOne_pos.ne'
  constructor
  · intro whole
    obtain ⟨_, _, shape, _⟩ := exists_whole_of_toInt? whole
    refine ⟨by rw [shape]; rfl, ?_⟩
    rw [value, signedUnits?_of_toInt? whole, Option.getD_some]
    push_cast
    exact mul_div_cancel_right₀ _ one
  · rintro ⟨finite, same⟩
    obtain ⟨units, signed⟩ := exists_signedUnits finite
    rw [value, signed, Option.getD_some, div_eq_iff one] at same
    have product : units = n * unitsPerOne := by exact_mod_cast same
    exact toInt?_of_signedUnits? finite (signed.trans (congrArg some product))

/-- Narrowing gives the integer of 64 bits that a number is, and nothing if it is none. -/
theorem narrow?_eq_some_iff {n : Int64}
    : x.narrow? = some n ↔ x.isFinite ∧ x.value = n.toInt := by
  rw [narrow?_eq, Option.bind_eq_some_iff]
  simp only [toInt64?_eq_some_iff, toInt?_eq_some_iff]
  constructor
  · rintro ⟨m, whole, rfl⟩
    exact whole
  · intro whole
    exact ⟨n.toInt, whole, rfl⟩

end Binary64
end Gcode.Number
