import Gcode.Proofs.LinuxCnc.Construction
import Gcode.Proofs.Word.ReadBack

/-! Words of the built-in dialect that were built, read back from their canonical texts.
The kinds and formats of its rules go together, and a code never has a minus sign because its
pattern takes none. In other dialects a word can be built whose text denotes no value.
-/

namespace Gcode.LinuxCnc

open Form Number Text

variable {xyDecimals : Precision} {verify : Bool} {word : Word}

theorem accepts_linuxCnc : Dialect.linuxCnc.rules.Accepts := by
  intro letter rule slot
  obtain rfl := Option.some.inj ((rules_eq_ruleOf letter).symm.trans slot)
  rw [format_ruleOf, kind_ruleOf]
  cases ValueClass.ofLetter letter <;> rfl

/-- There is no sign in a code. -/
theorem isSignChar_of_mem_code {text : List Char} (member : text ∈ code)
    : ∀ c ∈ text, isSignChar c = false := by
  obtain ⟨blanks, hb, _, ⟨whole, hw, tail, ht, rfl⟩, rfl⟩ := member
  refine List.forall_mem_append.2 ⟨?_, List.forall_mem_append.2 ⟨?_, ?_⟩⟩
  · exact fun c inside => (of_isBlank (hb c inside)).2.1
  · exact fun c inside => (of_isDecimalDigit ((mem_several.1 hw).2 c inside)).2.1
  · rcases mem_optional.1 ht with rfl | ⟨_, ⟨c, hc, rfl⟩, _, ⟨d, hd, rfl⟩, rfl⟩
    · exact List.forall_mem_nil _
    · simp [of_isPoint hc, of_isDecimalDigit hd]

/-- The canonical text of a word that was built denotes a value. Only a code could be refused, and
one with a minus sign has the sign in its text.
-/
theorem denotes_of_built (h : word.Built { xyDecimals, verify })
    : word.rule.format.Denotes word.xyDecimals word.value := by
  have rule : word.rule = ruleOf word.letter :=
    Option.some.inj (h.rule.symm.trans (rules_eq_ruleOf word.letter))
  have value := h.value
  have longest := found_match? word.letter word.valueText
  rw [← rule, h.readsBack] at longest
  have member : word.valueText ∈ (ValueClass.ofLetter word.letter).form word.valueText :=
    longest.member
  rw [Word.valueText, rule, format_ruleOf] at member
  rw [rule, format_ruleOf]
  rw [rule, kind_ruleOf] at value
  generalize word.value = held at member value
  generalize ValueClass.ofLetter word.letter = class' at member value
  cases class' with
  | real =>
      cases value with
      | real finite => exact ValueFormat.denotes_real finite (by decide)
  | position =>
      cases value with
      | real finite => exact ValueFormat.denotes_real finite (by decide)
  | code =>
      cases value with
      | @real x finite =>
          cases x with
          | finite negative units representable =>
              intro _
              by_contra minus
              rw [Bool.not_eq_false] at minus
              subst minus
              obtain ⟨rest, shown⟩ := Binary64.toCode_negative representable
              have inside : '-' ∈ (Binary64.finite true units representable).toCode := by
                simp [shown]
              exact absurd (isSignChar_of_mem_code member '-' inside) (by decide)
          | _ => contradiction
  | integer =>
      cases value
      exact trivial
  | tool =>
      cases value
      exact trivial
  | name =>
      cases value
      exact trivial

/-- A word that was built is read back from its canonical text, as a word with the same letter and
the same text, exactly if its text denotes a value of its kind; otherwise the text is refused, with
the error of a value text that denotes no value. This holds in every dialect with rules that can
write their values. In the built-in dialect every word is read back.
-/
theorem built_read_back (xyDecimals : Precision) (verify : Bool) (c : Char) (value : Value)
    (word : Word)
    : (∀ name description rules dialect,
        Dialect.ofRules name description rules = .ok dialect
        → Word.ofValue { dialect, xyDecimals, verify } c value = .ok word
        → (word.rule.format.Denotes xyDecimals word.value
            → ∃ again, readWord { dialect, xyDecimals, verify } word.toText = .ok again
              ∧ again.letter = word.letter ∧ again.toText = word.toText)
          ∧ (¬ word.rule.format.Denotes xyDecimals word.value
            → readWord { dialect, xyDecimals, verify } word.toText
              = .error (.wordValueInvalid word.letter.char word.valueText)))
      ∧ (Word.ofValue { xyDecimals, verify } c value = .ok word
        → ∃ again, readWord { xyDecimals, verify } word.toText = .ok again
          ∧ again.letter = word.letter ∧ again.toText = word.toText) := by
  constructor
  · intro name description rules dialect accepted made
    have built := Word.built_of_ofValue made
    have accepts := Dialect.accepts_of_ofRules accepted _ _ built.rule
    have back := built.readWord_toText accepts
    rwa [built.xyDecimals] at back
  · intro made
    have built := Word.built_of_ofValue made
    have accepts := accepts_linuxCnc _ _ built.rule
    exact (built.readWord_toText accepts).1 (denotes_of_built built)

/-- A code is read back as it was built. -/
theorem built_code_read_back
    : ∃ word again, Word.ofValue {} 'G' (.integer 2) = .ok word
        ∧ readWord {} word.toText = .ok again ∧ again.toText = word.toText := by
  have accepted : (Word.ofValue {} 'G' (.integer 2)).isOk := by decide +kernel
  obtain ⟨word, made⟩ := exists_of_isOk accepted
  obtain ⟨again, read, _, shown⟩ := (built_read_back .standard true 'G' (.integer 2) word).2 made
  exact ⟨word, again, made, read, shown⟩

/-- Line numbers that are written with a point, in the format of real numbers. -/
def pointedRule : Rule where
  kind := .integer
  pattern := .ofSource "^\\d+\\.\\d+" (by decide +kernel)
  fallback := none
  format := .real
  description := "Line number"

def pointedDialect : Dialect where
  name := "pointed"
  description := none
  rules := RuleTable.empty.insert ⟨'N', rfl⟩ pointedRule

def pointedWord : Word where
  letter := ⟨'N', rfl⟩
  value := .integer 5
  rule := pointedRule
  dialect := pointedDialect
  xyDecimals := .standard

theorem ofValue_pointedWord
    : Word.ofValue { dialect := pointedDialect } 'N' (.integer 5) = .ok pointedWord := by
  have readsBack : pointedWord.ReadsBack := by decide +kernel
  have built : Word.ofValue { dialect := pointedDialect } pointedWord.letter.char (.integer 5)
      = if pointedWord.ReadsBack then .ok pointedWord
        else .error (.wordValueInvalid pointedWord.letter.char pointedWord.valueText) :=
    Word.ofValue_char rfl rfl rfl rfl
  rwa [if_pos readsBack] at built

/-- A line number with a point can be built, and its canonical text cannot be read. -/
theorem built_not_read_back
    : Dialect.ofRules "pointed" none [('N', pointedRule)] = .ok pointedDialect
      ∧ Word.ofValue { dialect := pointedDialect } 'N' (.integer 5) = .ok pointedWord
      ∧ pointedWord.toText = "N5.000".toList
      ∧ readWord { dialect := pointedDialect } "N5.000".toList
        = .error (.wordValueInvalid 'N' "5.000".toList) := by
  have text : pointedWord.toText = "N5.000".toList := by decide +kernel
  have valueText : pointedWord.valueText = "5.000".toList := by decide +kernel
  have refused :=
    ((Word.built_of_ofValue ofValue_pointedWord).readWord_toText rfl).2 (fun denotes => denotes)
  rw [text, valueText] at refused
  exact ⟨rfl, ofValue_pointedWord, text, refused⟩

end Gcode.LinuxCnc
