import Gcode.Settings

/-! Words: a letter and a value, with the rule that says how the value is written. -/

namespace Gcode

structure Word where
  letter : Letter
  value : Value
  rule : Rule
  dialect : Dialect
  xyDecimals : Precision

namespace Word

/-- The canonical text of the value alone. -/
def valueText (word : Word) : List Char :=
  word.rule.format.render word.value word.xyDecimals

/-- The canonical text. -/
def toText (word : Word) : List Char :=
  word.letter.char :: word.valueText

/-- The letter with its meaning, as in `F: Feedrate`. -/
def description (word : Word) : String :=
  s!"{word.letter.char}: {word.rule.description}"

/-- The settings under which other text is read to compare it with a word. -/
def settings (word : Word) : Settings where
  dialect := word.dialect
  xyDecimals := word.xyDecimals
  verify := true

/-- A word from its parts: the value is taken over into the kind of the letter, and its
canonical text must be a value text of the letter from end to end.
-/
def ofValue (settings : Settings) (c : Char) (value : Value) : Except Error Word := do
  let (letter, rule) ← settings.dialect.requireRule c.toUpper
  match value.coerce? rule.kind with
  | none => .error (.wordValueInvalid letter.char value.toText)
  | some value =>
      let word : Word := ⟨letter, value, rule, settings.dialect, settings.xyDecimals⟩
      if rule.match? word.valueText = some (word.valueText, []) then .ok word
      else .error (.wordValueInvalid letter.char word.valueText)

/-- A word from a value text that its rule matched. -/
def ofMatch (settings : Settings) (letter : Letter) (rule : Rule) (source : List Char)
    : Except Error Word :=
  match rule.read? source with
  | none => .error (.wordValueInvalid letter.char source)
  | some value => .ok ⟨letter, value, rule, settings.dialect, settings.xyDecimals⟩

end Word
end Gcode
