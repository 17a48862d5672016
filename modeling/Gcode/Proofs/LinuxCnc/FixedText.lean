import Gcode.Proofs.LinuxCnc.Canonical
import Gcode.Proofs.Number.FixedForm

/-! Texts of real numbers with a fixed number of places in the built-in dialect.
They are canonical: the dialect takes the whole of such a text for a real letter, and the number
that is read from it has the same text.
-/

namespace Gcode.LinuxCnc

open Number Text

variable {x : Binary64}

/-- The letters of real numbers take the whole text. -/
theorem match?_toFixed (places : Nat) (finite : x.isFinite) {letter : Letter} {rule : Rule}
    (slot : Dialect.linuxCnc.rules letter = some rule)
    (format : rule.format = .real ∨ rule.format = .position)
    : rule.match? (x.toFixed places) = some (x.toFixed places, []) := by
  obtain rfl := Option.some.inj ((rules_eq_ruleOf letter).symm.trans slot)
  rw [format_ruleOf] at format
  have found := found_match? letter (x.toFixed places)
  generalize ValueClass.ofLetter letter = class' at format found
  have numeric : class' ≠ .name := by
    rintro rfl
    exact format.elim nofun nofun
  have member := toFixed_mem places finite []
  have form : class'.form (x.toFixed places)
      = if startsNumber (x.toFixed places ++ []) then scientific else plain := by
    rw [List.append_nil]
    cases class' with
    | real => rfl
    | position => rfl
    | _ => exact format.elim nofun nofun
  have number := toFixed_numberText places finite
  have longest : LongestPrefix (class'.form (x.toFixed places)) (x.toFixed places ++ [])
      (x.toFixed places) [] :=
    (blanksFirst_form _ _ numeric).longestPrefix (form ▸ member) number.kinds.1
      (stops_of_solid number.solid) stops_nil
  rw [List.append_nil] at longest
  exact found.unique longest

/-- The text of a finite number with a fixed number of decimal places denotes the multiple of the
last place that is nearest to the number, of two the even one. It is zero without a sign and
without a digit before its point, or a decimal with the sign of the multiple; either way it is the
rounded text, stripped if it reads as zero. The letters of real numbers take the whole text, and
the number that it is read as is finite and has the same text.
-/
theorem toFixed_canonical (finite : x.isFinite) (places : Nat)
    : x.toStripped places = x.toFixed places
      ∧ (∃ steps : Int,
          decimalValue? (x.toFixed places) = some ((steps : ℚ) / 10 ^ places)
          ∧ IsNearestMultiple places steps x.value
          ∧ (steps = 0 → x.toFixed places = zeroText places)
          ∧ (steps ≠ 0
            → ∃ decimal : FixedDecimal places, x.toFixed places = decimal.text
              ∧ (decimal.negative ↔ steps < 0)))
      ∧ (∀ letter rule,
          Dialect.linuxCnc.rules letter = some rule
          → rule.format = .real ∨ rule.format = .position
          → rule.match? (x.toFixed places) = some (x.toFixed places, []))
      ∧ ∃ again, Binary64.read? (x.toFixed places) = some again
          ∧ again.isFinite ∧ again.toFixed places = x.toFixed places := by
  refine ⟨x.toStripped_eq places, ⟨x.signedSteps places, ?_, ?_, ?_, ?_⟩, ?_,
    x.roundedTo places, ?_, ?_, ?_⟩
  · exact Binary64.decimalValue?_toFixed places finite
  · exact Binary64.isNearestMultiple_signedSteps places finite
  · exact Binary64.toFixed_of_signedSteps places finite
  · exact Binary64.exists_fixedDecimal places finite
  · exact fun letter rule => match?_toFixed places finite
  · exact Binary64.read?_toFixed places finite
  · exact Binary64.isFinite_roundedTo places finite
  · exact Binary64.toFixed_roundedTo places finite

/-- Two and a half without places goes to the even number. -/
theorem toFixed_canonical_tie
    : let x : Binary64 := .ofRatio false (5 * Binary64.unitsPerOne) 2
      x.toFixed 0 = ['2']
      ∧ (∃ rule, Dialect.linuxCnc.rules ⟨'X', rfl⟩ = some rule ∧ rule.match? ['2'] = some (['2'], []))
      ∧ ∃ again, Binary64.read? ['2'] = some again ∧ again.toFixed 0 = ['2'] := by
  intro x
  have shown : x.toFixed 0 = ['2'] := by decide +kernel
  have finite : x.isFinite := by decide +kernel
  obtain ⟨-, -, taken, again, read, -, same⟩ := toFixed_canonical finite 0
  rw [shown] at taken read same
  exact ⟨shown, ⟨_, rfl, taken ⟨'X', rfl⟩ _ rfl (.inr rfl)⟩, again, read, same⟩

end Gcode.LinuxCnc
