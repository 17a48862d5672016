import Gcode.Proofs.Dialect.Consistency
import Gcode.Proofs.Dialect.Inheritance
import Gcode.Proofs.Number.IntegerText
import Gcode.Proofs.Word.ReadBack

/-! Words of consistent dialects, and how they are written.
The value of a word has the kind of its rule, whether the word was read or built, and the format of
the rule fits that kind. So a canonical text is always one that the format is there for: no text is
written as a number, and no number is cut off to an integer.
-/

namespace Gcode

open Number

-----------------------------------------------------------------------------------------
-- Texts that a format is there for
-----------------------------------------------------------------------------------------

namespace ValueFormat

variable {format : ValueFormat} {value : Value} {xyDecimals : Precision}

/-- The canonical text of a value in a format that is there for it. Numbers are written in the formats
of numbers, and integers alone as integers.
-/
def renderFitting? (format : ValueFormat) (value : Value) (xyDecimals : Precision)
    : Option (List Char) :=
  match format, value with
  | verbatim, value => some value.toText
  | integer, .integer n => some (intText n.toInt)
  | integer, _ => none
  | format, value => value.toReal?.map (format.renderNumber · xyDecimals)

/-- A format is there for a value exactly if it accepts its kind, and then the value is written so. -/
theorem renderFitting?_eq
    : format.renderFitting? value xyDecimals
      = if format.accepts value.kind then some (format.render value xyDecimals) else none := by
  cases format <;> cases value <;> rfl

end ValueFormat

theorem Value.kind_of_ofKind {kind : ValueKind} {value : Value} (h : OfKind kind value)
    : value.kind = kind := by
  cases h <;> rfl

-----------------------------------------------------------------------------------------
-- Words of a dialect
-----------------------------------------------------------------------------------------

namespace Word

variable {dialect : Dialect} {word : Word}

/-- A word was read from a text in a dialect, or built from a letter and a value. -/
inductive OfDialect (dialect : Dialect) (word : Word) : Prop where
  | scanned {xyDecimals : Precision} {verify : Bool} {text : List Char}
    (member : word ∈ (scanWords { dialect, xyDecimals, verify } text).1) : OfDialect dialect word
  | built {xyDecimals : Precision} {verify : Bool} {c : Char} {value : Value}
    (made : Word.ofValue { dialect, xyDecimals, verify } c value = .ok word)
    : OfDialect dialect word

theorem OfDialect.own (h : word.OfDialect dialect) : word.dialect = dialect := by
  cases h with
  | scanned member =>
      obtain ⟨piece, after, rfl, reads⟩ := exists_piece_of_mem_scanWords member
      exact reads.settings.1
  | built made => exact (built_of_ofValue made).dialect

theorem OfDialect.rule (h : word.OfDialect dialect) : dialect.rules word.letter = some word.rule := by
  cases h with
  | scanned member =>
      obtain ⟨piece, after, rfl, reads⟩ := exists_piece_of_mem_scanWords member
      exact reads.rule
  | built made => exact (built_of_ofValue made).rule

theorem OfDialect.ofKind (h : word.OfDialect dialect) : Value.OfKind word.rule.kind word.value := by
  cases h with
  | scanned member =>
      obtain ⟨piece, after, rfl, reads⟩ := exists_piece_of_mem_scanWords member
      exact Value.ofKind_of_read? reads.value
  | built made => exact (built_of_ofValue made).value

/-- What holds of the words of a dialect. Their letters and rules are those of the dialect, and their
values have the kinds of their rules. The canonical text of the value is one that its format is there
for: a text is written as it is, a real number never as an integer, and an integer in the format for
integers as its digits alone, with a minus sign where there has to be one.
-/
structure Consistent (dialect : Dialect) (word : Word) : Prop where
  own : word.dialect = dialect
  letter : word.letter ∈ dialect.letters
  rule : dialect.rules word.letter = some word.rule
  kind : word.value.kind = word.rule.kind
  fits : word.rule.format.renderFitting? word.value word.xyDecimals = some word.valueText
  text : ∀ t, word.value = .text t → word.rule.format = .verbatim ∧ word.valueText = t
  real : ∀ x, word.value = .real x → word.rule.format ≠ .integer
  integer
    : word.rule.format = .integer
      → ∃ n : Int64, word.value = .integer n ∧ Spells word.valueText n.toInt
          ∧ ∃ decimal : FixedDecimal 0,
              word.valueText = decimal.text ∧ (decimal.negative ↔ n.toInt < 0)

theorem OfDialect.consistent (accepts : dialect.rules.Accepts) (h : word.OfDialect dialect)
    : word.Consistent dialect := by
  have kind := Value.kind_of_ofKind h.ofKind
  have accepted : word.rule.format.accepts word.value.kind := by
    rw [kind]
    exact accepts _ _ h.rule
  constructor
  case own => exact h.own
  case letter =>
    rw [Dialect.letters, RuleTable.mem_letters, h.rule]
    rfl
  case rule => exact h.rule
  case kind => exact kind
  case fits => rw [ValueFormat.renderFitting?_eq, if_pos accepted, valueText]
  case text =>
    intro t same
    rw [same] at accepted
    rw [valueText, same]
    cases format : word.rule.format with
    | verbatim => exact ⟨rfl, rfl⟩
    | _ =>
        rw [format] at accepted
        contradiction
  case real =>
    intro x same format
    rw [same, format] at accepted
    contradiction
  case integer =>
    intro format
    rw [format] at accepted
    cases same : word.value with
    | integer n =>
        have shown : word.valueText = intText n.toInt := by rw [valueText, same, format]; rfl
        rw [shown]
        exact ⟨n, rfl, intText_exact n.toInt⟩
    | _ =>
        rw [same] at accepted
        contradiction

/-- A dialect that was obtained in any way has letters from A to Z, with rules that can write their
values, and all words that are read or built in it have its rules, values of their kinds, and
canonical texts that are exact.
-/
theorem consistent_of_obtained (dialect : Dialect) (obtained : dialect.Obtained)
    : dialect.Consistent ∧ ∀ word : Word, word.OfDialect dialect → word.Consistent dialect :=
  ⟨obtained.consistent, fun _ => OfDialect.consistent obtained.consistent.accepts⟩

/-- The letter `S` has codes in the built-in dialect, and integers in one that starts from it. -/
theorem consistent_of_obtained_over
    : ∃ dialect word, DialectFile.spindleFile.toDialect (some Dialect.linuxCnc) = .ok dialect
        ∧ word ∈ (scanWords { dialect } "s012".toList).1
        ∧ word.value = .integer 12
        ∧ dialect.Consistent
        ∧ word.Consistent dialect := by
  have accepted : (DialectFile.spindleFile.toDialect (some Dialect.linuxCnc)).isOk := by
    decide +kernel
  obtain ⟨dialect, defined⟩ := exists_of_isOk accepted
  have found : ((DialectFile.spindleFile.toDialect (some Dialect.linuxCnc)).toOption.any
      fun dialect =>
        (scanWords { dialect } "s012".toList).1.any fun word => word.value = .integer 12) := by
    decide +kernel
  rw [defined] at found
  obtain ⟨word, member, value⟩ := List.any_eq_true.1 found
  obtain ⟨consistent, words⟩ :=
    consistent_of_obtained dialect (.extended (.made Dialect.ofRules_linuxCnc) defined)
  exact ⟨dialect, word, defined, member, of_decide_eq_true value, consistent,
    words word (.scanned member)⟩

end Word
end Gcode
