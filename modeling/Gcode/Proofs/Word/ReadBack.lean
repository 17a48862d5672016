import Gcode.Proofs.Dialect.Rules
import Gcode.Proofs.Number.Whole
import Gcode.Proofs.Value.Format
import Gcode.Proofs.Word.Construction

/-! Words that were built, read back from their canonical texts.
Building a word makes sure that its rule takes the whole of its canonical text, and not that the
text denotes a value of the kind of its rule. For some pairs of a kind and a format it does not.
-/

namespace Gcode

open Number Text

-----------------------------------------------------------------------------------------
-- Values of a kind
-----------------------------------------------------------------------------------------

/-- What the values of a kind are in words that were built. -/
inductive Value.OfKind : ValueKind → Value → Prop where
  | integer (n : Int64) : OfKind .integer (.integer n)
  | real {x : Binary64} (finite : x.isFinite) : OfKind .real (.real x)
  | text {t : List Char} (trimmed : trim t = t) : OfKind .text (.text t)

namespace Value

variable {kind : ValueKind} {value source : Value}

theorem natAbs_toInt_le (n : Int64) : n.toInt.natAbs ≤ 2 ^ 63 := by
  have low := n.le_toInt
  have high := n.toInt_lt
  omega

theorem isFinite_ofInt (n : Int64) : (Binary64.ofInt n.toInt).isFinite := by
  rw [Binary64.ofInt_eq (natAbs_toInt_le n)]
  rfl

theorem ofKind_of_read? {text : List Char} (h : Value.read? kind text = some value)
    : OfKind kind value := by
  cases kind with
  | integer =>
      obtain ⟨n, _, rfl⟩ := Option.map_eq_some_iff.1 h
      exact .integer n
  | real =>
      obtain ⟨x, _, found⟩ := Option.bind_eq_some_iff.1 h
      obtain ⟨finite, rfl⟩ := finiteReal?_eq_some_iff.1 found
      exact .real finite
  | text =>
      cases h
      exact .text (trim_trim text)

/-- A value that is taken over into a kind has it. -/
theorem ofKind_of_coerce? (h : source.coerce? kind = some value) : OfKind kind value := by
  cases kind with
  | integer =>
      cases source with
      | integer n =>
          cases h
          exact .integer n
      | real x =>
          obtain ⟨n, _, rfl⟩ := Option.map_eq_some_iff.1 h
          exact .integer n
      | text t =>
          have read : Value.read? .integer t = some value := h
          exact ofKind_of_read? read
  | real =>
      cases source with
      | integer n =>
          cases h
          exact .real (isFinite_ofInt n)
      | real x =>
          obtain ⟨finite, rfl⟩ := finiteReal?_eq_some_iff.1 h
          exact .real finite
      | text t =>
          have read : Value.read? .real t = some value := h
          exact ofKind_of_read? read
  | text =>
      cases source with
      | integer n =>
          cases h
          exact .text (trim_of_solid (solid_intText n.toInt))
      | real x =>
          cases h
          exact .text (trim_of_solid x.solid_toText)
      | text t =>
          have read : Value.read? .text t = some value := h
          exact ofKind_of_read? read

end Value

-----------------------------------------------------------------------------------------
-- Canonical texts that denote values
-----------------------------------------------------------------------------------------

namespace ValueFormat

variable {format : ValueFormat} {kind : ValueKind} {value : Value} {xyDecimals : Precision}

/-- Whether the canonical text of a value denotes a value of the same kind. Texts and reals do,
but for a real with a minus sign as a code: its sign comes after a zero. An integer that is written
as a real number has a point in its text, and past the largest binary64 number below `2 ^ 63` its
text is past the integers of 64 bits.
-/
def Denotes (format : ValueFormat) (xyDecimals : Precision) : Value → Prop
  | .text _ => True
  | .real (.finite negative _ _) => format = .code → negative = false
  | .real _ => False
  | .integer n =>
      match format with
      | .real => False
      | .position => xyDecimals.places = 0 ∧ n.toInt < 2 ^ 63 - 512
      | .code => 0 ≤ n.toInt ∧ n.toInt < 2 ^ 63 - 512
      | .integer => True
      | .verbatim => True

theorem denotes_real {x : Binary64} (finite : x.isFinite) (other : format ≠ .code)
    : format.Denotes xyDecimals (.real x) := by
  cases x with
  | finite negative units h => exact fun same => absurd same other
  | _ => contradiction

/-- What is read from the canonical text of a value: nothing, or a value with the same text. -/
structure ReadsBackAs (format : ValueFormat) (xyDecimals : Precision) (kind : ValueKind)
    (value : Value) : Prop where
  denoting
    : format.Denotes xyDecimals value
        → ∃ again, Value.read? kind (format.render value xyDecimals) = some again
          ∧ format.render again xyDecimals = format.render value xyDecimals
  other
    : ¬ format.Denotes xyDecimals value
        → Value.read? kind (format.render value xyDecimals) = none

/-- Numbers have no blanks in their texts. -/
theorem trim_render (number : ∀ t, value ≠ .text t)
    : trim (format.render value xyDecimals) = format.render value xyDecimals := by
  refine trim_of_solid fun c member => ?_
  rw [← Bool.not_eq_true]
  intro blank
  obtain ⟨t, same, _⟩ := mem_text_of_mem_render member blank
  exact number t same

theorem readsBackAs_text {t : List Char} (trimmed : trim t = t)
    : format.ReadsBackAs xyDecimals .text (.text t) where
  denoting _ := by
    have shown : format.render (.text t) xyDecimals = t := by cases format <;> rfl
    exact ⟨.text t, by simp [shown, Value.read?, trimmed], rfl⟩
  other denied := absurd trivial denied

/-- A value that is read from the canonical text of a value with that text itself. -/
theorem readsBackAs_of_read? {again : Value}
    (read : Value.read? kind (format.render value xyDecimals) = some again)
    (shown : format.render again xyDecimals = format.render value xyDecimals)
    (denotes : format.Denotes xyDecimals value) : format.ReadsBackAs xyDecimals kind value where
  denoting _ := ⟨again, read, shown⟩
  other denied := absurd denotes denied

theorem readsBackAs_of_none (read : Value.read? kind (format.render value xyDecimals) = none)
    (denied : ¬ format.Denotes xyDecimals value) : format.ReadsBackAs xyDecimals kind value where
  denoting denotes := absurd denotes denied
  other _ := read

theorem readsBackAs_real {x : Binary64} (finite : x.isFinite) (accepts : format.accepts .real)
    : format.ReadsBackAs xyDecimals .real (.real x) := by
  have trimmed : trim (format.render (.real x) xyDecimals) = format.render (.real x) xyDecimals :=
    trim_render (by simp)
  -- what is left to show is about the text of a number
  have number (y : Binary64) := render_real format y xyDecimals
  obtain ⟨negative, units, h, rfl⟩ : ∃ negative units h, x = .finite negative units h := by
    cases x with
    | finite negative units h => exact ⟨negative, units, h, rfl⟩
    | _ => contradiction
  have fixed (places : Nat)
      (shown : ∀ y, format.renderNumber y xyDecimals = y.toFixed places)
      (denotes : format.Denotes xyDecimals (.real (.finite negative units h)))
      : format.ReadsBackAs xyDecimals .real (.real (.finite negative units h)) := by
    have read := Binary64.read?_toFixed places finite
    rw [← shown, ← number] at read
    refine readsBackAs_of_read? (Value.read?_real_of_trim trimmed read
      (Binary64.isFinite_roundedTo places finite)) ?_ denotes
    rw [number, number, shown, shown, Binary64.toFixed_roundedTo places finite]
  cases format with
  | real => exact fixed realPlaces (fun _ => rfl) (denotes_real finite (by decide))
  | position => exact fixed xyDecimals.places (fun _ => rfl) (denotes_real finite (by decide))
  | code =>
      cases negative with
      | false =>
          have read := Binary64.read?_toCode h
          exact readsBackAs_of_read? (Value.read?_real_of_trim trimmed read rfl) rfl fun _ => rfl
      | true =>
          obtain ⟨rest, shown⟩ := Binary64.toCode_negative h
          refine readsBackAs_of_none ?_ fun denotes => absurd (denotes rfl) (by decide)
          rw [Value.read?, trimmed, number, renderNumber, shown, Binary64.read?_zero_minus]
          rfl
  | integer => contradiction
  | verbatim =>
      have read := Binary64.read?_toText finite
      exact readsBackAs_of_read? (Value.read?_real_of_trim trimmed read finite) rfl
        (denotes_real finite (by decide))

/-- The integer nearest to one of 64 bits, if that has 64 bits too. -/
theorem toInt64?_nearestInt (n : Int64)
    : toInt64? (Binary64.nearestInt n.toInt)
      = if n.toInt < 2 ^ 63 - 512 then some (.ofInt (Binary64.nearestInt n.toInt)) else none := by
  have bound := Binary64.nearestWhole_le (Value.natAbs_toInt_le n)
  have small := Binary64.nearestWhole_lt_iff (n := n.toInt.natAbs)
  have range : -2 ^ 63 ≤ Binary64.nearestInt n.toInt ∧ Binary64.nearestInt n.toInt < 2 ^ 63
      ↔ n.toInt < 2 ^ 63 - 512 := by
    unfold Binary64.nearestInt
    split <;> omega
  rw [toInt64?_eq]
  simp only [range]

/-- What an integer is read back as is said by the integer that its text denotes. -/
theorem readsBackAs_integer_of_toInt64? {n : Int64} {m : Int}
    (read : readInt64? (format.render (.integer n) xyDecimals) = toInt64? m)
    (shown
      : ∀ again : Int64, again.toInt = m
          → format.render (.integer again) xyDecimals = format.render (.integer n) xyDecimals)
    (denotes : format.Denotes xyDecimals (.integer n) ↔ (toInt64? m).isSome)
    : format.ReadsBackAs xyDecimals .integer (.integer n) := by
  have value : Value.read? .integer (format.render (.integer n) xyDecimals)
      = (toInt64? m).map .integer := by
    rw [Value.read?, trim_render (by simp), read]
  cases found : toInt64? m with
  | some again =>
      rw [found] at value
      exact readsBackAs_of_read? value (shown again (toInt64?_eq_some_iff.1 found))
        (denotes.2 (by rw [found]; rfl))
  | none =>
      rw [found] at value
      exact readsBackAs_of_none value fun given => by simpa [found] using denotes.1 given

theorem readsBackAs_integer_of_none {n : Int64}
    (read : readInt64? (format.render (.integer n) xyDecimals) = none)
    (denied : ¬ format.Denotes xyDecimals (.integer n))
    : format.ReadsBackAs xyDecimals .integer (.integer n) := by
  refine readsBackAs_of_none ?_ denied
  rw [Value.read?, trim_render (by simp), read]
  rfl

/-- The text of an integer as a position is the integer nearest to it, unless it has a point. -/
theorem readsBackAs_position (n : Int64)
    : ValueFormat.position.ReadsBackAs xyDecimals .integer (.integer n) := by
  have number (n : Int64) : ValueFormat.position.render (.integer n) xyDecimals
      = (Binary64.ofInt n.toInt).toFixed xyDecimals.places :=
    render_ofInt (by simp) (by simp) n xyDecimals
  by_cases none : xyDecimals.places = 0
  · refine readsBackAs_integer_of_toInt64? (m := Binary64.nearestInt n.toInt) ?_ ?_ ?_
    · rw [number, none, Binary64.toFixed_ofInt_zero (Value.natAbs_toInt_le n), readInt64?_intText]
    · intro again same
      rw [number, number, same, Binary64.ofInt_nearestInt]
    · rw [toInt64?_nearestInt, Denotes]
      split <;> simp_all
  · refine readsBackAs_integer_of_none ?_ fun denotes => none denotes.1
    rw [number, Binary64.readInt64?_toFixed (Value.isFinite_ofInt n) none]

/-- The text of an integer as a code denotes a whole number if there is no minus sign in it. -/
theorem readsBackAs_code (n : Int64)
    : ValueFormat.code.ReadsBackAs xyDecimals .integer (.integer n) := by
  have number (n : Int64) : ValueFormat.code.render (.integer n) xyDecimals
      = (Binary64.ofInt n.toInt).toCode :=
    render_ofInt (by simp) (by simp) n xyDecimals
  have bound := Value.natAbs_toInt_le n
  by_cases negative : n.toInt < 0
  · have minus := Binary64.ofInt_eq bound
    rw [decide_eq_true negative] at minus
    obtain ⟨rest, shown⟩ := Binary64.toCode_negative (Binary64.representable_nearestWhole bound)
    refine readsBackAs_integer_of_none ?_ fun denotes => absurd denotes.1 (not_le.2 negative)
    rw [number, minus, shown, Binary64.readInt64?_zero_minus]
  · obtain ⟨natural, same⟩ : ∃ natural : Nat, n.toInt = natural := ⟨n.toInt.toNat, by omega⟩
    rw [same, Int.natAbs_natCast] at bound
    obtain ⟨m, read, again, small⟩ := Binary64.exists_readInt64?_toCode bound
    refine readsBackAs_integer_of_toInt64? (m := m) ?_ ?_ ?_
    · rw [number, same, read]
    · intro other equal
      rw [number, number, equal, same, again]
    · rw [toInt64?_eq, Denotes]
      split <;> simp_all

theorem readsBackAs_integer (n : Int64) : format.ReadsBackAs xyDecimals .integer (.integer n) := by
  have whole (text : format.render (.integer n) xyDecimals = intText n.toInt)
      (denotes : format.Denotes xyDecimals (.integer n))
      : format.ReadsBackAs xyDecimals .integer (.integer n) := by
    refine readsBackAs_integer_of_toInt64? (by rw [text, readInt64?_intText]) ?_ ?_
    · intro again same
      rw [Int64.toInt_inj.1 same]
    · simp [toInt64?_toInt, denotes]
  cases format with
  | integer => exact whole rfl trivial
  | verbatim => exact whole rfl trivial
  | real =>
      refine readsBackAs_integer_of_none ?_ nofun
      rw [render_ofInt (by simp) (by simp), renderNumber,
        Binary64.readInt64?_toFixed (Value.isFinite_ofInt n) (by decide)]
  | position => exact readsBackAs_position n
  | code => exact readsBackAs_code n

/-- Exactly the canonical texts that denote values are read back, as values with the same text. -/
theorem readsBackAs (accepts : format.accepts kind) (h : Value.OfKind kind value)
    : format.ReadsBackAs xyDecimals kind value := by
  cases h with
  | integer n => exact readsBackAs_integer n
  | real finite => exact readsBackAs_real finite accepts
  | text trimmed => exact readsBackAs_text trimmed

end ValueFormat

-----------------------------------------------------------------------------------------
-- Words
-----------------------------------------------------------------------------------------

section Words

variable {settings : Settings} {word : Word} {c : Char} {value : Value}

/-- What is known of a word that was built under some settings. -/
structure Word.Built (settings : Settings) (word : Word) : Prop where
  rule : settings.dialect.rules word.letter = some word.rule
  value : Value.OfKind word.rule.kind word.value
  readsBack : word.ReadsBack
  dialect : word.dialect = settings.dialect
  xyDecimals : word.xyDecimals = settings.xyDecimals

theorem Word.built_of_ofValue (h : Word.ofValue settings c value = .ok word)
    : word.Built settings := by
  unfold Word.ofValue at h
  obtain ⟨⟨letter, rule⟩, required, h⟩ := bind_eq_ok_iff.1 h
  have slot : settings.dialect.rules letter = some rule := by
    simp only [Dialect.requireRule] at required
    split at required
    · rename_i found
      cases required
      simp only [Dialect.rule?, Option.bind_eq_bind, Option.bind_eq_some_iff] at found
      obtain ⟨_, _, _, slot, same⟩ := found
      cases same
      exact slot
    · contradiction
  dsimp only at h
  split at h
  · contradiction
  · rename_i value' coerced
    split at h
    · rename_i matched
      cases h
      exact ⟨slot, Value.ofKind_of_coerce? coerced, matched, rfl, rfl⟩
    · contradiction

/-- The canonical text of a word that reads back is taken whole, and read as the value text that
it has.
-/
theorem readWord_toText (rule : settings.dialect.rules word.letter = some word.rule)
    (readsBack : word.ReadsBack)
    : readWord settings word.toText
      = match word.rule.read? word.valueText with
        | none => .error (.wordValueInvalid word.letter.char word.valueText)
        | some value =>
            .ok ⟨word.letter, value, word.rule, settings.dialect, settings.xyDecimals⟩ := by
  have start : word.toText.dropWhile isBlank = word.letter.char :: word.valueText :=
    dropWhile_of_stops (stops_cons.2 word.letter.isBlank_char)
  have next := nextLetter?_eq_some.2 ⟨_, start, .inl rfl, rule⟩
  have matched : word.rule.match? word.valueText = some (word.valueText, []) := readsBack
  cases value : word.rule.read? word.valueText with
  | none =>
      have step : Step.take settings word.toText
          = .fail (.wordValueInvalid word.letter.char word.valueText) word.valueText := by
        simp [Step.take, next, matched, Word.ofMatch, value]
      rw [readWord, readWords_of_fail step]
      rfl
  | some value' =>
      have step : Step.take settings word.toText
          = .word ⟨word.letter, value', word.rule, settings.dialect, settings.xyDecimals⟩ [] := by
        simp [Step.take, next, matched, Word.ofMatch, value]
      rw [readWord, readWords_of_word step, readWords_of_stop (Step.take_eq_stop_iff.2 (by simp))]
      rfl

/-- A word that was built is read back from its canonical text, as a word with the same letter and
the same text, if its text denotes a value of its kind. Otherwise the text is refused as a value
text of the letter.
-/
theorem Word.Built.readWord_toText (h : word.Built settings)
    (accepts : word.rule.format.accepts word.rule.kind)
    : (word.rule.format.Denotes word.xyDecimals word.value
        → ∃ again, readWord settings word.toText = .ok again
          ∧ again.letter = word.letter ∧ again.toText = word.toText)
      ∧ (¬ word.rule.format.Denotes word.xyDecimals word.value
        → readWord settings word.toText
          = .error (.wordValueInvalid word.letter.char word.valueText)) := by
  have back : word.rule.format.ReadsBackAs word.xyDecimals word.rule.kind word.value :=
    ValueFormat.readsBackAs accepts h.value
  rw [Gcode.readWord_toText h.rule h.readsBack]
  constructor
  · intro denotes
    obtain ⟨value, read, shown⟩ := back.denoting denotes
    have read : word.rule.read? word.valueText = some value := read
    rw [read]
    refine ⟨_, rfl, rfl, ?_⟩
    rw [toText, toText, valueText, ← h.xyDecimals, shown]
    rfl
  · intro denied
    have read : word.rule.read? word.valueText = none := back.other denied
    rw [read]

end Words

end Gcode
