import Gcode.Proofs.LinuxCnc.ReadBack
import Gcode.Proofs.Number.CodeForm
import Gcode.Proofs.Word.Consistency

/-! Codes of the built-in dialect and their canonical texts.
A text that is taken for a code denotes the number nearest to a whole number of tenths, so its
canonical text needs no second digit after the point and is taken for a code again. This makes the
texts of codes tell which codes are equal.
-/

namespace Gcode.LinuxCnc

open Form Number Text

-----------------------------------------------------------------------------------------
-- Values of codes
-----------------------------------------------------------------------------------------

section Values

variable {description : String} {text source rest : List Char} {x : Binary64}

theorem match?_code (description : String) (text : List Char)
    : (Dialect.LinuxCnc.code description).match? text
      = Dialect.LinuxCnc.codeNumber.match? text := by
  rw [Rule.match?, Dialect.LinuxCnc.code]
  cases Dialect.LinuxCnc.codeNumber.match? text <;> rfl

theorem mem_code_of_match?
    (h : (Dialect.LinuxCnc.code description).match? text = some (source, rest))
    : source ∈ code := by
  have found := takes_code text
  rw [← match?_code description, h] at found
  exact found.member

/-- What a code text denotes is the number nearest to a whole number of tenths. -/
theorem isCode_of_read? (member : source ∈ code)
    (read : Value.read? .real source = some (.real x)) : x.IsCode := by
  have value : realValue? source = some (.real x) := by
    obtain ⟨blanks, hb, body, hm, same⟩ := id member
    have number : Value.read? .real source = realValue? source := same ▸ read?_real hb (.of_code hm)
    rw [← number, read]
  obtain ⟨ascii, finite, same⟩ := isFinite_of_realValue? value
  rw [Value.real.inj same]
  exact isCode_nearestReal member ascii finite

/-- The canonical text of a code is taken for a code from end to end. -/
theorem match?_toCode (description : String) (h : x.IsCode)
    : (Dialect.LinuxCnc.code description).match? x.toCode = some (x.toCode, []) := by
  have longest := longestPrefix_valueText .standard (.code h) stops_nil fun _ => rfl
  rw [List.append_nil] at longest
  rw [match?_code]
  exact (takes_code _).unique longest

theorem read?_real_toCode (h : x.IsCode) : Value.read? .real x.toCode = some (.real x) :=
  Value.read?_real_of_trim (trim_of_solid x.solid_toCode) h.read?_toCode h.1

end Values

-----------------------------------------------------------------------------------------
-- Words of codes
-----------------------------------------------------------------------------------------

section Words

variable {word : Word}

/-- The letters whose values are written as codes have the rule of codes. -/
theorem exists_eq_code {letter : Letter} {rule : Rule}
    (defined : Dialect.linuxCnc.rules letter = some rule) (format : rule.format = .code)
    : ∃ description, rule = Dialect.LinuxCnc.code description := by
  obtain rfl := Option.some.inj ((rules_eq_ruleOf letter).symm.trans defined)
  obtain ⟨description, same⟩ := ruleOf_eq letter
  rw [format_ruleOf] at format
  have isCode : ValueClass.ofLetter letter = .code := by
    cases class' : ValueClass.ofLetter letter <;> rw [class'] at format <;> first | rfl | contradiction
  rw [isCode] at same
  exact ⟨description, same⟩

/-- The value of a word of a code was read from a code text, or could be: a word is built only if its
canonical text is a code text.
-/
theorem exists_mem_code (h : word.OfDialect Dialect.linuxCnc) (format : word.rule.format = .code)
    : ∃ source ∈ code, Value.read? .real source = some word.value := by
  obtain ⟨description, rule⟩ := exists_eq_code h.rule format
  cases h with
  | scanned member =>
      obtain ⟨piece, after, rfl, reads⟩ := exists_piece_of_mem_scanWords member
      have matched := reads.matched
      have value := reads.value
      rw [rule] at matched value
      exact ⟨piece.source, mem_code_of_match? matched, value⟩
  | built made =>
      have built := Word.built_of_ofValue made
      have denotes := denotes_of_built built
      have kind := built.value
      have matched : word.rule.match? word.valueText = some (word.valueText, []) := built.readsBack
      rw [rule] at kind matched
      refine ⟨word.valueText, mem_code_of_match? matched, ?_⟩
      rw [Word.valueText, format]
      rw [format] at denotes
      generalize word.value = held at kind denotes
      cases kind with
      | @real y finite =>
          cases y with
          | finite negative units h =>
              obtain rfl : negative = false := denotes rfl
              rw [ValueFormat.render_real, ValueFormat.renderNumber]
              exact Value.read?_real_of_trim (trim_of_solid (Binary64.solid_toCode _))
                (Binary64.read?_toCode h) finite
          | _ => contradiction

/-- A word of a code has the number nearest to tenths as its value, and the text of this number. -/
theorem exists_isCode (h : word.OfDialect Dialect.linuxCnc) (format : word.rule.format = .code)
    : ∃ x : Binary64, word.value = .real x ∧ x.IsCode ∧ word.valueText = x.toCode := by
  obtain ⟨source, member, read⟩ := exists_mem_code h format
  obtain ⟨x, value⟩ : ∃ x, word.value = .real x := by
    obtain ⟨x, _, found⟩ := Option.bind_eq_some_iff.1 read
    exact ⟨x, (Value.finiteReal?_eq_some_iff.1 found).2⟩
  rw [value] at read
  refine ⟨x, value, isCode_of_read? member read, ?_⟩
  rw [Word.valueText, value, format]
  rfl

/-- The text of a number that was read from a code text has two digits or more and one digit at most
after its point, it is a code text from end to end, and it is read as the same number. So two words of
codes, read or built, have one canonical text exactly if they are equal.
-/
theorem toCode_exact
    : (∀ description text source rest x,
        (Dialect.LinuxCnc.code description).match? text = some (source, rest)
        → (Dialect.LinuxCnc.code description).read? source = some (.real x)
        → (∃ decimal : CodeDecimal, x.toCode = decimal.text)
          ∧ (Dialect.LinuxCnc.code description).match? x.toCode = some (x.toCode, [])
          ∧ (Dialect.LinuxCnc.code description).read? x.toCode = some (.real x))
      ∧ ∀ v w : Word,
          v.OfDialect Dialect.linuxCnc
          → w.OfDialect Dialect.linuxCnc
          → v.rule.format = .code
          → w.rule.format = .code
          → (v.toText = w.toText ↔ v.eq w) := by
  constructor
  · intro description text source rest x matched read
    have isCode := isCode_of_read? (mem_code_of_match? matched) read
    exact ⟨isCode.exists_codeDecimal, match?_toCode description isCode, read?_real_toCode isCode⟩
  · intro v w hv hw formatV formatW
    obtain ⟨x, valueV, codeV, textV⟩ := exists_isCode hv formatV
    obtain ⟨y, valueW, codeW, textW⟩ := exists_isCode hw formatW
    rw [Word.toText, Word.toText, textV, textW, List.cons.injEq, Letter.char_inj, Word.eq_iff, valueV,
      valueW, codeV.toCode_inj codeW, Value.eq, codeV.eq_iff codeW]

/-- A number that is too large to have tenths is written without them. A code that was read and one
that was built have one text.
-/
theorem toCode_exact_large
    : (∃ x, x.toCode = "1000000000000000000000000".toList
        ∧ (Dialect.LinuxCnc.code "").read? " 01000000000000000000000000.5".toList = some (.real x)
        ∧ (Dialect.LinuxCnc.code "").read? x.toCode = some (.real x))
      ∧ ∃ v ∈ (scanWords {} "g 2.0".toList).1, ∃ w, Word.ofValue {} 'G' (.integer 2) = .ok w
          ∧ v.toText = w.toText := by
  constructor
  · have matched : (Dialect.LinuxCnc.code "").match? " 01000000000000000000000000.5X1".toList
        = some (" 01000000000000000000000000.5".toList, ['X', '1']) := by
      decide +kernel
    have read : (Dialect.LinuxCnc.code "").read? " 01000000000000000000000000.5".toList
        = some (.real (Numeral.toBinary64 false ⟨10 ^ 24, 0⟩)) := by
      decide +kernel
    exact ⟨_, by decide +kernel, read, (toCode_exact.1 _ _ _ _ _ matched read).2.2⟩
  · have found : (scanWords {} "g 2.0".toList).1.any fun v =>
        v.rule.format = .code ∧ (Word.ofValue {} 'G' (.integer 2)).toOption.any fun w =>
          w.rule.format = .code ∧ v.eq w := by
      decide +kernel
    obtain ⟨v, member, both⟩ := List.any_eq_true.1 found
    obtain ⟨formatV, built⟩ := of_decide_eq_true both
    have accepted : (Word.ofValue {} 'G' (.integer 2)).isOk := by decide +kernel
    obtain ⟨w, made⟩ := exists_of_isOk accepted
    rw [made] at built
    obtain ⟨formatW, same⟩ := of_decide_eq_true built
    exact ⟨v, member, w, made,
      (toCode_exact.2 v w (.scanned member) (.built made) formatV formatW).2 same⟩

end Words

end Gcode.LinuxCnc
