import Gcode.Proofs.Number.IntegerText
import Gcode.Proofs.Value.Coercion

/-! Words of integers.
The integer of a word is the one that was given: as an integer, as a number that is exactly that
integer, or as a text that spells it. Everything else is refused, so no number is rounded, cut off or
brought into the range of 64 bits.
-/

namespace Gcode

open Number Text

-----------------------------------------------------------------------------------------
-- Values
-----------------------------------------------------------------------------------------

namespace Value

/-- The integer that a value is, without any bound: itself, the exact value of a number, or what a
text spells between its blanks.
-/
inductive IsInteger : Value → Int → Prop where
  | integer (n : Int64) : IsInteger (.integer n) n.toInt
  | real {x : Binary64} {n : Int} (finite : x.isFinite) (same : x.value = n) : IsInteger (.real x) n
  | text {t : List Char} {n : Int} (spells : Spells (trim t) n) : IsInteger (.text t) n

variable {value result : Value} {n : Int} {x : Binary64}

theorem isInteger_integer_iff {own : Int64} : (integer own).IsInteger n ↔ own.toInt = n := by
  constructor
  · rintro ⟨⟩
    rfl
  · rintro rfl
    exact .integer own

theorem isInteger_real_iff : (real x).IsInteger n ↔ x.isFinite ∧ x.value = n := by
  constructor
  · intro given
    cases given with
    | real finite same => exact ⟨finite, same⟩
  · intro given
    exact .real given.1 given.2

theorem isInteger_text_iff {t : List Char} : (text t).IsInteger n ↔ Spells (trim t) n := by
  constructor
  · intro given
    cases given with
    | text spells => exact spells
  · exact .text

/-- A value is taken over as an integer exactly if it is one of 64 bits. By cases on the value. -/
theorem coerce?_integer_eq_some_iff
    : value.coerce? .integer = some result
      ↔ ∃ n : Int64, result = .integer n ∧ value.IsInteger n.toInt := by
  cases value with
  | integer own =>
      simp only [coerce?, Option.some.injEq, isInteger_integer_iff, Int64.toInt_inj]
      constructor
      · rintro rfl
        exact ⟨own, rfl, rfl⟩
      · rintro ⟨_, rfl, rfl⟩
        rfl
  | real x =>
      simp only [coerce?_integer_eq_narrow?, Option.map_eq_some_iff, Binary64.narrow?_eq_some_iff,
        isInteger_real_iff]
      constructor
      · rintro ⟨n, whole, rfl⟩
        exact ⟨n, rfl, whole⟩
      · rintro ⟨n, rfl, whole⟩
        exact ⟨n, whole, rfl⟩
  | text t =>
      simp only [coerce?, read?, Option.map_eq_some_iff, readInt64?_eq_some_iff, isInteger_text_iff]
      constructor
      · rintro ⟨n, spells, rfl⟩
        exact ⟨n, rfl, spells⟩
      · rintro ⟨n, rfl, spells⟩
        exact ⟨n, spells, rfl⟩

theorem coerce?_integer_of_isInteger {n : Int64} (whole : value.IsInteger n.toInt)
    : value.coerce? .integer = some (.integer n) :=
  coerce?_integer_eq_some_iff.2 ⟨n, rfl, whole⟩

theorem coerce?_integer_eq_none (other : ∀ n : Int64, ¬ value.IsInteger n.toInt)
    : value.coerce? .integer = none := by
  rw [Option.eq_none_iff_forall_ne_some]
  intro result found
  obtain ⟨n, -, whole⟩ := coerce?_integer_eq_some_iff.1 found
  exact other n whole

/-- A number that is infinite or NaN, that has digits after its point, or that is past 64 bits is no
integer of 64 bits.
-/
theorem not_isInteger_of_real
    (none
      : ¬ x.isFinite ∨ (∀ n : Int, x.value ≠ n) ∨ x.value < -2 ^ 63 ∨ 2 ^ 63 ≤ x.value)
    (n : Int64) : ¬ (real x).IsInteger n.toInt := by
  rw [isInteger_real_iff]
  rintro ⟨finite, same⟩
  have low : (-2 ^ 63 : ℚ) ≤ x.value := by
    rw [same]
    exact_mod_cast n.le_toInt
  have high : x.value < (2 ^ 63 : ℚ) := by
    rw [same]
    exact_mod_cast n.toInt_lt
  rcases none with infinite | fraction | below | above
  · exact infinite finite
  · exact fraction _ same
  · exact absurd low (not_le.2 below)
  · exact absurd high (not_lt.2 above)

end Value

-----------------------------------------------------------------------------------------
-- Words
-----------------------------------------------------------------------------------------

section Words

variable {settings : Settings} {c : Char} {letter : Letter} {rule : Rule} {value : Value}

theorem Word.ofValue_of_coerce?_eq_none (slot : settings.dialect.rule? c = some (letter, rule))
    (refused : value.coerce? rule.kind = none)
    : Word.ofValue settings c value = .error (.wordValueInvalid letter.char value.toText) := by
  simp only [Word.ofValue, Dialect.requireRule_toUpper slot, bind, Except.bind, refused]

/-- The word of a letter with integers has the integer that was given. A value that is an integer of
64 bits is refused only where its canonical text does not read back, every other value is refused
for its own text. A number is taken over by comparing it with the ends of the range as real numbers
and cutting it off, and the numbers that are refused are those that are no integers of the range.
-/
theorem Word.ofValue_integer (settings : Settings) (c : Char) (letter : Letter) (rule : Rule)
    (value : Value) (slot : settings.dialect.rule? c = some (letter, rule))
    (kind : rule.kind = .integer)
    : (∀ word, Word.ofValue settings c value = .ok word
        → word.letter = letter
          ∧ ∃ n : Int64, word.value = .integer n ∧ value.IsInteger n.toInt)
      ∧ (∀ n : Int64, value.IsInteger n.toInt
        → let word : Word := ⟨letter, .integer n, rule, settings.dialect, settings.xyDecimals⟩
          Word.ofValue settings c value
            = if word.ReadsBack then .ok word
              else .error (.wordValueInvalid letter.char word.valueText))
      ∧ ((∀ n : Int64, ¬ value.IsInteger n.toInt)
        → Word.ofValue settings c value = .error (.wordValueInvalid letter.char value.toText))
      ∧ ∀ x, value = .real x
        → value.coerce? rule.kind = x.narrow?.map .integer
          ∧ (¬ x.isFinite ∨ (∀ n : Int, x.value ≠ n) ∨ x.value < -2 ^ 63 ∨ 2 ^ 63 ≤ x.value
            → Word.ofValue settings c value
              = .error (.wordValueInvalid letter.char x.toText)) := by
  have refused (other : ∀ n : Int64, ¬ value.IsInteger n.toInt)
      : Word.ofValue settings c value = .error (.wordValueInvalid letter.char value.toText) := by
    refine ofValue_of_coerce?_eq_none slot ?_
    rw [kind]
    exact Value.coerce?_integer_eq_none other
  have taken (n : Int64) (whole : value.IsInteger n.toInt)
      : let word : Word := ⟨letter, .integer n, rule, settings.dialect, settings.xyDecimals⟩
        Word.ofValue settings c value
          = if word.ReadsBack then .ok word
            else .error (.wordValueInvalid letter.char word.valueText) := by
    refine ofValue_of_coerce? slot ?_
    rw [kind]
    exact Value.coerce?_integer_of_isInteger whole
  refine ⟨?_, taken, refused, ?_⟩
  · intro word built
    by_cases whole : ∃ n : Int64, value.IsInteger n.toInt
    · obtain ⟨n, whole⟩ := whole
      have same := taken n whole
      dsimp only at same
      rw [built] at same
      split at same
      · cases same
        exact ⟨rfl, n, rfl, whole⟩
      · contradiction
    · rw [refused (not_exists.1 whole)] at built
      contradiction
  · rintro x rfl
    refine ⟨?_, ?_⟩
    · rw [kind]
      exact Value.coerce?_integer_eq_narrow? x
    · intro none
      exact refused (Value.not_isInteger_of_real none)

/-- The largest integer of 64 bits is given as a text with a sign and blanks around it. The number
after it is refused, though it is the real number nearest to that integer.
-/
theorem Word.ofValue_integer_ends
    : let rule := Dialect.LinuxCnc.integer "Line (block) number"
      let next := Binary64.ofInt (2 ^ 63)
      Dialect.linuxCnc.rule? 'n' = some (⟨'N', rfl⟩, rule)
      ∧ rule.kind = .integer
      ∧ Word.ofValue {} 'n' (.text " +9223372036854775807 ".toList)
        = .ok ⟨⟨'N', rfl⟩, .integer Int64.maxValue, rule, Dialect.linuxCnc, Precision.standard⟩
      ∧ next.eq (.ofInt Int64.maxValue.toInt)
      ∧ Word.ofValue {} 'n' (.real next)
        = .error (.wordValueInvalid 'N' "9223372036854776000".toList) := by
  have slot : Dialect.linuxCnc.rule? 'n'
      = some (⟨'N', rfl⟩, Dialect.LinuxCnc.integer "Line (block) number") := rfl
  have given := fun value => Word.ofValue_integer {} 'n' _ _ value slot rfl
  refine ⟨slot, rfl, ?_, by decide +kernel, ?_⟩
  · have digits : "9223372036854775807".toList.all Char.isDigit := by decide +kernel
    have spells : Spells (trim " +9223372036854775807 ".toList) Int64.maxValue.toInt :=
      ⟨['+'], "9223372036854775807".toList, by decide +kernel, .inr (.inl rfl), by decide,
        List.all_eq_true.1 digits, by decide +kernel⟩
    have taken := (given _).2.1 Int64.maxValue (.text spells)
    exact taken.trans (if_pos (by decide +kernel))
  · have next : (Binary64.ofInt (2 ^ 63)).toInt? = some (2 ^ 63) := by decide +kernel
    have above : (2 ^ 63 : ℚ) ≤ (Binary64.ofInt (2 ^ 63)).value := by
      rw [(Binary64.toInt?_eq_some_iff.1 next).2]
      norm_num
    have shown : (Binary64.ofInt (2 ^ 63)).toText = "9223372036854776000".toList := by
      decide +kernel
    have refused := ((given _).2.2.2 _ rfl).2 (.inr (.inr (.inr above)))
    rwa [shown] at refused

end Words

end Gcode
