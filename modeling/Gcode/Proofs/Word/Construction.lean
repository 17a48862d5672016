import Gcode.Proofs.Word.Equality
import Gcode.Proofs.Word.Lossless

/-! Words that were read, built again from their letters and values.
Reading a word does not ask whether its canonical text is a value text of its letter, and building
one does. Where it is one, both give the same word.
-/

namespace Gcode

open Number Text

-----------------------------------------------------------------------------------------
-- Values that were read
-----------------------------------------------------------------------------------------

namespace Value

variable {kind : ValueKind} {source : List Char} {value : Value} {x : Binary64}

theorem finiteReal?_eq_some_iff : finiteReal? x = some value ↔ x.isFinite ∧ value = .real x := by
  unfold finiteReal?
  cases x.isFinite <;> simp [eq_comm]

/-- A value that was read has the kind that it was read as. -/
theorem coerce?_of_read? (read : Value.read? kind source = some value)
    : value.coerce? kind = some value := by
  cases kind with
  | integer =>
      obtain ⟨n, _, rfl⟩ := Option.map_eq_some_iff.1 read
      rfl
  | real =>
      obtain ⟨x, _, finite⟩ := Option.bind_eq_some_iff.1 read
      obtain ⟨_, rfl⟩ := finiteReal?_eq_some_iff.1 finite
      exact finite
  | text =>
      cases read
      exact congrArg (fun t => some (Value.text t)) (trim_trim source)

/-- A value that was read is a number or a text, so it is equal to itself. -/
theorem eq_self_of_read? (read : Value.read? kind source = some value) : value.eq value := by
  cases kind with
  | integer =>
      obtain ⟨n, _, rfl⟩ := Option.map_eq_some_iff.1 read
      simp [Value.eq]
  | real =>
      obtain ⟨x, _, found⟩ := Option.bind_eq_some_iff.1 read
      obtain ⟨finite, rfl⟩ := finiteReal?_eq_some_iff.1 found
      exact Binary64.eq_self finite
  | text =>
      cases read
      simp [Value.eq]

end Value

-----------------------------------------------------------------------------------------
-- Words that were read
-----------------------------------------------------------------------------------------

section Words

variable {settings : Settings} {text : List Char} {word : Word}

/-- Every word of a scan is the word of a piece of some text. -/
theorem exists_piece_of_mem_scanWords (member : word ∈ (scanWords settings text).1)
    : ∃ piece : Piece, ∃ after, piece.word = word ∧ piece.ReadsBefore settings after := by
  fun_induction scanWords settings text with
  | case1 => contradiction
  | case2 => contradiction
  | case3 text first rest found words error more ih =>
      rcases List.mem_cons.1 member with rfl | member
      · obtain ⟨piece, same, _, reads⟩ := Step.take_eq_word found
        exact ⟨piece, rest, same, reads⟩
      · exact ih (by rwa [more])

theorem Dialect.rule?_char {dialect : Dialect} {letter : Letter} {rule : Rule}
    (defined : dialect.rules letter = some rule)
    : dialect.rule? letter.char = some (letter, rule) := by
  simp [rule?, Letter.ofChar?_eq_some.2 letter.toUpper_char, defined]

/-- The rule for a character is that of the letter in the other case too. -/
theorem Dialect.requireRule_toUpper {dialect : Dialect} {c : Char} {letter : Letter} {rule : Rule}
    (slot : dialect.rule? c = some (letter, rule))
    : dialect.requireRule c.toUpper = .ok (letter, rule) := by
  obtain ⟨_, mark, more⟩ := Option.bind_eq_some_iff.1 slot
  obtain ⟨_, defined, same⟩ := Option.bind_eq_some_iff.1 more
  cases same
  rw [requireRule, Letter.ofChar?_eq_some.1 mark, rule?_char defined]

/-- Whether the canonical text of a value is a value text of its letter from end to end. -/
def Word.ReadsBack (word : Word) : Prop :=
  word.rule.match? word.valueText = some (word.valueText, [])

instance (word : Word) : Decidable word.ReadsBack :=
  inferInstanceAs (Decidable (_ = _))

/-- A word is built from a value that its rule takes exactly where its canonical text reads back. -/
theorem Word.ofValue_of_coerce? {c : Char} {letter : Letter} {rule : Rule} {source value : Value}
    (slot : settings.dialect.rule? c = some (letter, rule))
    (coerced : source.coerce? rule.kind = some value)
    : let word : Word := ⟨letter, value, rule, settings.dialect, settings.xyDecimals⟩
      Word.ofValue settings c source
        = if word.ReadsBack then .ok word
          else .error (.wordValueInvalid letter.char word.valueText) := by
  simp only [Word.ofValue, Dialect.requireRule_toUpper slot, bind, Except.bind, coerced]
  rfl

theorem Word.ofValue_char {source : Value}
    (rule : settings.dialect.rules word.letter = some word.rule)
    (value : source.coerce? word.rule.kind = some word.value)
    (dialect : word.dialect = settings.dialect) (places : word.xyDecimals = settings.xyDecimals)
    : Word.ofValue settings word.letter.char source
      = if word.ReadsBack then .ok word
        else .error (.wordValueInvalid word.letter.char word.valueText) := by
  obtain ⟨letter, value', rule', _, _⟩ := word
  subst dialect places
  exact ofValue_of_coerce? (Dialect.rule?_char rule) value

/-- A word that was read is built again exactly where its canonical text reads back. -/
theorem ofValue_of_mem_scanWords (member : word ∈ (scanWords settings text).1)
    : Word.ofValue settings word.letter.char word.value
      = if word.ReadsBack then .ok word
        else .error (.wordValueInvalid word.letter.char word.valueText) := by
  obtain ⟨piece, after, rfl, reads⟩ := exists_piece_of_mem_scanWords member
  obtain ⟨dialect, places⟩ := reads.settings
  exact Word.ofValue_char reads.rule (Value.coerce?_of_read? reads.value) dialect places

theorem eq_self_of_mem_scanWords (member : word ∈ (scanWords settings text).1)
    : word.eq word := by
  obtain ⟨piece, after, rfl, reads⟩ := exists_piece_of_mem_scanWords member
  exact Word.eq_iff.2 ⟨rfl, Value.eq_self_of_read? reads.value⟩

end Words

end Gcode
