import Gcode.Proofs.LinuxCnc.Grammar
import Gcode.Proofs.Number.Code
import Gcode.Proofs.Value.Format

/-! Canonical value texts of the built-in dialect.
A canonical value text has the form of its class, and a space or the end of the text after it ends
the longest prefix of that form. So it is taken whole, and it reads back as the value that was
written, up to the places that reals are written with.
-/

namespace Gcode.LinuxCnc

open Form Number Text

-----------------------------------------------------------------------------------------
-- Where value texts end
-----------------------------------------------------------------------------------------

/-- The texts of a form have blanks at their start alone. -/
def BlanksFirst (form : Form) : Prop :=
  ∀ text ∈ form, ∃ blanks body,
    text = blanks ++ body ∧ (∀ c ∈ blanks, isBlank c) ∧ ∀ c ∈ body, isBlank c = false

theorem blanksFirst_of_numberText {form : Form} (h : ∀ text ∈ form, NumberText text)
    : BlanksFirst (many isBlank * form) := by
  rintro _ ⟨blanks, hb, body, hm, rfl⟩
  exact ⟨blanks, body, rfl, hb, (h body hm).solid⟩

theorem NumberText.of_digits {text : List Char} (member : text ∈ digits) : NumberText text := by
  obtain ⟨some, all⟩ := mem_several.1 member
  simpa using NumberText.whole [] text (.inl rfl) some all

theorem blanksFirst_form (text : List Char) (class' : ValueClass) (numeric : class' ≠ .name)
    : BlanksFirst (class'.form text) := by
  have reals : BlanksFirst (if startsNumber text then scientific else plain) := by
    split
    · exact fun text member => ⟨[], text, rfl, List.forall_mem_nil _, (NumberText.of_scientific member).solid⟩
    · exact blanksFirst_of_numberText fun _ => .of_plain
  cases class' with
  | real => exact reals
  | position => exact reals
  | code => exact blanksFirst_of_numberText fun _ => .of_code
  | integer => exact blanksFirst_of_numberText fun _ => .of_digits
  | tool => exact blanksFirst_of_numberText fun _ => .of_digits
  | name => contradiction

/-- A text of a form that does not start with a blank is the longest prefix before a blank. -/
theorem BlanksFirst.longestPrefix {form : Form} {source after : List Char} (h : BlanksFirst form)
    (member : source ∈ form) (some : source ≠ []) (first : Stops isBlank source)
    (ends : Stops (!isBlank ·) after) : LongestPrefix form (source ++ after) source after := by
  refine ⟨rfl, member, ?_⟩
  intro more rest split has
  by_contra longer
  obtain ⟨tail, rfl⟩ : source <+: more :=
    List.prefix_of_prefix_length_le ⟨after, rfl⟩ ⟨rest, split⟩ (by omega)
  cases tail with
  | nil => simp at longer
  | cons d tail =>
      rw [List.append_assoc, List.append_cancel_left_eq] at split
      obtain ⟨c, more, rfl⟩ := List.exists_cons_of_ne_nil some
      have blank : isBlank d := by
        rw [← split] at ends
        simpa using ends
      obtain ⟨blanks, body, parts, hb, solid⟩ := h _ has
      cases blanks with
      | nil =>
          rw [List.nil_append] at parts
          have next : isBlank d = false := solid d (by simp [← parts])
          exact absurd blank (by simp [next])
      | cons b blanks =>
          obtain ⟨rfl, _⟩ := List.cons.inj parts
          have next : isBlank c = false := stops_cons.1 first
          exact absurd (hb c List.mem_cons_self) (by simp [next])

-----------------------------------------------------------------------------------------
-- Values and their texts
-----------------------------------------------------------------------------------------

namespace ValueClass

def format : ValueClass → ValueFormat
  | real => .real
  | position => .position
  | code => .code
  | integer => .integer
  | tool | name => .verbatim

/-- What the values of a class are that were read from spaced text. -/
inductive Holds : ValueClass → Value → Prop where
  | real {x} (finite : x.isFinite) : Holds real (.real x)
  | position {x} (finite : x.isFinite) : Holds position (.real x)
  | code {x} (tenths : x.IsCode) : Holds code (.real x)
  | integer {n} (natural : 0 ≤ n.toInt) : Holds integer (.integer n)
  | tool {t} (some : t ≠ []) (all : ∀ c ∈ t, isDecimalDigit c) : Holds tool (.text t)
  | name {t} (some : t ≠ []) (line : '\n' ∉ t) (first : Stops isBlank t) (spaced : Spaced t)
    : Holds name (.text t)

/-- The value that the canonical text of a value denotes: reals keep the places that they are
written with.
-/
def reread (xyDecimals : Precision) : ValueClass → Value → Value
  | real, .real x => .real (x.roundedTo ValueFormat.realPlaces)
  | position, .real x => .real (x.roundedTo xyDecimals.places)
  | _, value => value

end ValueClass

theorem format_ruleOf (letter : Letter)
    : (ruleOf letter).format = (ValueClass.ofLetter letter).format := by
  obtain ⟨description, same⟩ := ruleOf_eq letter
  rw [same]
  cases ValueClass.ofLetter letter <;> rfl

theorem kind_ruleOf (letter : Letter)
    : (ruleOf letter).kind = match ValueClass.ofLetter letter with
        | .real | .position | .code => .real
        | .integer => .integer
        | .tool | .name => .text := by
  obtain ⟨description, same⟩ := ruleOf_eq letter
  rw [same]
  cases ValueClass.ofLetter letter <;> rfl

section Digits

variable {text : List Char}

theorem mem_digits_of_isDigit (some : text ≠ []) (all : ∀ c ∈ text, c.isDigit)
    : text ∈ digits :=
  mem_several.2 ⟨some, fun c member => isDecimalDigit_of_isDigit (all c member)⟩

theorem mem_fraction_of_isDigit (all : ∀ c ∈ text, c.isDigit) : '.' :: text ∈ fraction := by
  refine mem_optional.2 (.inr (cons_mem_one_mul.2 ⟨rfl, ?_⟩))
  exact mem_mul_of_nil_mem (mem_many.2 fun c member => isDecimalDigit_of_isDigit (all c member))
    (by simp)

end Digits

/-- Positional texts with a sign are numbers that start with a digit, and need no exponent. -/
theorem positional_mem_scientific (negative : Bool) (n places : Nat)
    : signText negative ++ positional n places ∈ scientific := by
  refine Language.append_mem_mul (mem_optional_sign.2 (isSign_signText negative)) ?_
  have whole (m : Nat) : Number.digits m ∈ digits :=
    mem_digits_of_isDigit (digits_ne_nil m) fun c => isDigit_of_mem_digits
  rw [positional_eq]
  split
  · exact mem_mul_of_nil_mem (whole n) (by simp [fraction])
  · exact Language.append_mem_mul (whole _)
      (mem_fraction_of_isDigit fun c => isDigit_of_mem_paddedDigits)

theorem zero_mem_scientific : ['0'] ∈ scientific := by
  simpa [signText, positional, Number.digits] using positional_mem_scientific false 0 0

theorem startsNumber_append {source : List Char} (member : source ∈ scientific)
    (after : List Char) : startsNumber (source ++ after) = true := by
  by_contra none
  exact (noPrefix_scientific _).2 (by simpa using none) source after rfl member

/-- Zero is written without a digit before its point. -/
theorem point_zeros_mem {places : Nat} (some : places ≠ 0)
    : '.' :: List.replicate places '0' ∈ optional sign * decimal := by
  have zeros : List.replicate places '0' ∈ digits :=
    mem_digits_of_isDigit (by simpa using some) (by simp +decide)
  have body : '.' :: List.replicate places '0' ∈ decimal :=
    (Language.mem_add _ _ _).2 (.inr (cons_mem_one_mul.2 ⟨rfl, zeros⟩))
  exact mem_optional_mul.2 (.inl body)

section Texts

variable {x : Binary64} {after : List Char}

/-- The text of a real number is a number of its form, whatever comes after it. -/
theorem toFixed_mem (places : Nat) (finite : x.isFinite) (after : List Char)
    : x.toFixed places
      ∈ if startsNumber (x.toFixed places ++ after) then scientific else plain := by
  rcases Binary64.toFixed_eq places finite with shown | ⟨negative, n, shown⟩
  · rw [shown, zeroText]
    split
    · rw [startsNumber_append zero_mem_scientific, if_pos rfl]
      exact zero_mem_scientific
    · rename_i some
      exact Language.append_mem_mul (nil_mem_many.2 trivial) (point_zeros_mem some)
  · have member := positional_mem_scientific negative n places
    rw [shown, startsNumber_append member, if_pos rfl]
    exact member

theorem toFixed_numberText (places : Nat) (finite : x.isFinite)
    : NumberText (x.toFixed places) := by
  rcases Binary64.toFixed_eq places finite with shown | ⟨negative, n, shown⟩
  · rw [shown, zeroText]
    split
    · exact .of_scientific zero_mem_scientific
    · rename_i some
      exact .of_plain (point_zeros_mem some)
  · rw [shown]
    exact .of_scientific (positional_mem_scientific negative n places)

theorem toCode_mem (h : x.IsCode)
    : x.toCode ∈ digits * optional (point * one isDecimalDigit) := by
  obtain ⟨zeros, n, places, shown, few⟩ := h.exists_toCode
  have whole (m : Nat) : List.replicate zeros '0' ++ Number.digits m ∈ digits := by
    refine mem_digits_of_isDigit (by simp [digits_ne_nil]) ?_
    intro c member
    rcases List.mem_append.1 member with zero | digit
    · rw [(List.mem_replicate.1 zero).2]
      rfl
    · exact isDigit_of_mem_digits digit
  rw [shown, positional_eq]
  split
  · exact mem_mul_of_nil_mem (whole n) (by simp)
  · have one : places = 1 := by omega
    subst one
    have length : (paddedDigits 1 (n % 10 ^ 1)).length = 1 :=
      length_paddedDigits one_pos (Nat.mod_lt _ (by decide))
    obtain ⟨d, hd⟩ := List.length_eq_one_iff.1 length
    have digit : isDecimalDigit d :=
      isDecimalDigit_of_isDigit (isDigit_of_mem_paddedDigits (hd ▸ List.mem_singleton_self d))
    rw [← List.append_assoc]
    refine Language.append_mem_mul (whole _) (mem_optional.2 (.inr (cons_mem_one_mul.2 ⟨rfl, ?_⟩)))
    rw [hd]
    exact cons_mem_one.2 ⟨digit, rfl⟩

theorem digits_mem_natural {text : List Char} (member : text ∈ digits) : text ∈ natural :=
  Language.append_mem_mul (nil_mem_many.2 trivial) member

theorem intText_of_nonneg {n : Int} (h : 0 ≤ n) : intText n = Number.digits n.natAbs := by
  rw [intText, decide_eq_false (by omega)]
  rfl

end Texts

-----------------------------------------------------------------------------------------
-- All classes
-----------------------------------------------------------------------------------------

section Classes

variable {class' : ValueClass} {value : Value}

/-- The canonical text of a value that is no name is a number of the form of its class, whatever
comes after it.
-/
theorem valueText_mem (xyDecimals : Precision) (h : class'.Holds value) (numeric : class' ≠ .name)
    (after : List Char)
    : class'.format.render value xyDecimals
        ∈ class'.form (class'.format.render value xyDecimals ++ after)
      ∧ NumberText (class'.format.render value xyDecimals) := by
  cases h with
  | real finite => exact ⟨toFixed_mem _ finite after, toFixed_numberText _ finite⟩
  | position finite => exact ⟨toFixed_mem _ finite after, toFixed_numberText _ finite⟩
  | @code x tenths =>
      have member : x.toCode ∈ _ := toCode_mem tenths
      exact ⟨Language.append_mem_mul (nil_mem_many.2 trivial) member, .of_code member⟩
  | @integer n natural =>
      have member : Number.digits n.toInt.natAbs ∈ digits :=
        mem_digits_of_isDigit (digits_ne_nil _) fun c => isDigit_of_mem_digits
      have shown : ValueFormat.integer.render (.integer n) xyDecimals
          = Number.digits n.toInt.natAbs := intText_of_nonneg natural
      rw [ValueClass.format, shown]
      exact ⟨digits_mem_natural member, .of_digits member⟩
  | @tool t some all =>
      have member : t ∈ digits := mem_several.2 ⟨some, all⟩
      exact ⟨digits_mem_natural member, .of_digits member⟩
  | name => contradiction

/-- The canonical text of a value is taken whole: before a blank or the end of the text if the
value is no name, and before the end of the text if it is one.
-/
theorem longestPrefix_valueText (xyDecimals : Precision) (h : class'.Holds value)
    {after : List Char} (ends : Stops (!isBlank ·) after) (last : class' = .name → after = [])
    : LongestPrefix (class'.form (class'.format.render value xyDecimals ++ after))
        (class'.format.render value xyDecimals ++ after)
        (class'.format.render value xyDecimals) after := by
  by_cases isName : class' = .name
  · subst isName
    rw [last rfl, List.append_nil]
    cases h with
    | @name t some line =>
        refine ⟨List.append_nil t, ⟨rfl, some, line⟩, ?_⟩
        rintro more after - ⟨rfl, -⟩
        exact Nat.le_refl _
  · obtain ⟨member, number⟩ := valueText_mem xyDecimals h isName after
    exact (blanksFirst_form _ _ isName).longestPrefix member number.kinds.1
      (stops_of_solid number.solid) ends

/-- The canonical text of a value reads back. -/
theorem read?_valueText (xyDecimals : Precision) {letter : Letter}
    (h : (ValueClass.ofLetter letter).Holds value)
    : (ruleOf letter).read? ((ValueClass.ofLetter letter).format.render value xyDecimals)
      = some ((ValueClass.ofLetter letter).reread xyDecimals value) := by
  rw [Rule.read?, kind_ruleOf]
  revert h
  generalize ValueClass.ofLetter letter = class'
  intro h
  have trimmed (numeric : class' ≠ .name) : trim (class'.format.render value xyDecimals)
      = class'.format.render value xyDecimals :=
    trim_append_of_solid (List.forall_mem_nil _) (valueText_mem xyDecimals h numeric []).2.solid
  cases h with
  | real finite =>
      exact Value.read?_real_of_trim (trimmed (by simp)) (Binary64.read?_toFixed _ finite)
        (Binary64.isFinite_roundedTo _ finite)
  | position finite =>
      exact Value.read?_real_of_trim (trimmed (by simp)) (Binary64.read?_toFixed _ finite)
        (Binary64.isFinite_roundedTo _ finite)
  | code tenths => exact Value.read?_real_of_trim (trimmed (by simp)) tenths.read?_toCode tenths.1
  | @integer n natural =>
      have shown : trim (intText n.toInt) = intText n.toInt := trimmed (by simp)
      have read : (readInt64? (trim (intText n.toInt))).map Value.integer
          = some (.integer n) := by rw [shown, readInt64?_intText, toInt64?_toInt, Option.map_some]
      exact read
  | tool => exact congrArg (fun t => some (Value.text t)) (trimmed (by simp))
  | @name t _ _ first spaced =>
      have shown : trim t = t := by
        rw [trim_of_spaced spaced, trimStart, dropWhile_of_stops first]
      exact congrArg (fun t => some (Value.text t)) shown

/-- A value that was read back from its canonical text has the same canonical text. -/
theorem render_reread (xyDecimals : Precision) (h : class'.Holds value)
    : class'.format.render (class'.reread xyDecimals value) xyDecimals
      = class'.format.render value xyDecimals := by
  cases h with
  | real finite => exact Binary64.toFixed_roundedTo _ finite
  | position finite => exact Binary64.toFixed_roundedTo _ finite
  | _ => rfl

end Classes

end Gcode.LinuxCnc
