import Gcode.Proofs.Letter
import Gcode.Proofs.LinuxCnc.Numbers
import Gcode.Proofs.LinuxCnc.Patterns
import Gcode.Proofs.Pattern.Taker
import Gcode.Word.Scan

/-! The grammar of the built-in dialect.
Every letter has a class of values, every class a form of value texts, and every value text a
value. A scanner that knows nothing of patterns reads the same words.
-/

namespace Gcode.LinuxCnc

open Form Number Text

-----------------------------------------------------------------------------------------
-- Classes of values
-----------------------------------------------------------------------------------------

/-- What the values of a letter are. -/
inductive ValueClass where
  | real
  | position
  | code
  | integer
  | tool
  | name
deriving DecidableEq

namespace ValueClass

/-- The class of a letter. -/
def ofLetter (letter : Letter) : ValueClass :=
  match letter.char with
  | 'X' | 'Y' => position
  | 'G' | 'H' | 'M' | 'S' => code
  | 'L' | 'N' => integer
  | 'T' => tool
  | 'O' => name
  | _ => real

/-- The rule of the built-in dialect for a class, with a description. -/
def rule : ValueClass → String → Rule
  | real => Dialect.LinuxCnc.real
  | position => Dialect.LinuxCnc.position
  | code => Dialect.LinuxCnc.code
  | integer => Dialect.LinuxCnc.integer
  | tool => Dialect.LinuxCnc.text Dialect.LinuxCnc.positiveInteger
  | name => Dialect.LinuxCnc.text Dialect.LinuxCnc.restOfLine

end ValueClass

/-- Every letter has a rule, which is the one of its class. -/
theorem rules_eq (letter : Letter)
    : ∃ description,
        Dialect.linuxCnc.rules letter = some ((ValueClass.ofLetter letter).rule description) := by
  revert letter
  refine Letter.forall_of_alphabet ?_
  simp only [Letter.alphabet, List.forall_mem_cons]
  repeat' apply And.intro
  all_goals intros
  all_goals first | exact ⟨_, rfl⟩ | contradiction

/-- The rule of a letter. -/
def ruleOf (letter : Letter) : Rule :=
  (Dialect.linuxCnc.rules letter).get (by obtain ⟨_, h⟩ := rules_eq letter; simp [h])

theorem rules_eq_ruleOf (letter : Letter)
    : Dialect.linuxCnc.rules letter = some (ruleOf letter) :=
  (Option.some_get _).symm

theorem ruleOf_eq (letter : Letter)
    : ∃ description, ruleOf letter = (ValueClass.ofLetter letter).rule description := by
  obtain ⟨description, h⟩ := rules_eq letter
  exact ⟨description, Option.some.inj ((rules_eq_ruleOf letter).symm.trans h)⟩

theorem isName_iff (letter : Letter)
    : ValueClass.ofLetter letter = .name ↔ letter.char = 'O' := by
  constructor
  · intro isName
    unfold ValueClass.ofLetter at isName
    split at isName <;> first | contradiction | assumption
  · intro same
    rw [ValueClass.ofLetter, same]
    rfl

/-- A text in which nothing starts a name. -/
def NameFree (text : List Char) : Prop :=
  'o' ∉ text ∧ 'O' ∉ text

instance (text : List Char) : Decidable (NameFree text) :=
  inferInstanceAs (Decidable (_ ∧ _))

theorem NameFree.of_append {front rest : List Char} (free : NameFree (front ++ rest))
    : NameFree rest :=
  ⟨fun inside => free.1 (List.mem_append_right _ inside),
    fun inside => free.2 (List.mem_append_right _ inside)⟩

theorem NameFree.normalize {text : List Char} (free : NameFree text)
    : NameFree (Text.normalize text) :=
  ⟨fun inside => (mem_normalize inside).elim (by decide) free.1,
    fun inside => (mem_normalize inside).elim (by decide) free.2⟩

/-- A character of such a text writes no letter of names. -/
theorem NameFree.class_ne_name {c : Char} {letter : Letter} {text : List Char}
    (free : NameFree text) (inside : c ∈ text) (found : Letter.ofChar? c = some letter)
    : ValueClass.ofLetter letter ≠ .name := by
  intro isName
  have mark := Letter.ofChar?_eq_some_iff.1 found
  rw [(isName_iff letter).1 isName] at mark
  rcases mark with rfl | rfl
  · exact free.2 inside
  · exact free.1 inside

-----------------------------------------------------------------------------------------
-- Value texts
-----------------------------------------------------------------------------------------

/-- Whether a text starts with a digit, after at most one sign. -/
def startsNumber : List Char → Bool
  | [] => false
  | c :: text => isDecimalDigit c || isSignChar c && text.head?.any isDecimalDigit

/-- The form of the value texts of a class at the start of a text. A name is all of the text. -/
def ValueClass.form (text : List Char) : ValueClass → Form
  | real | position => if startsNumber text then scientific else plain
  | code => LinuxCnc.code
  | integer | tool => natural
  | name => { source | source = text ∧ source ≠ [] ∧ '\n' ∉ source }

/-- A prefix of a text is a number with an exponent or without one only where the text starts
with a digit, after at most one sign.
-/
theorem noPrefix_scientific (text : List Char)
    : NoPrefix scientific text ↔ startsNumber text = false := by
  constructor
  · intro none
    by_contra starts
    rw [Bool.not_eq_false] at starts
    cases text with
    | nil => contradiction
    | cons c text =>
        rw [startsNumber, Bool.or_eq_true, Bool.and_eq_true] at starts
        rcases starts with digit | ⟨isSign, more⟩
        · refine none [c] text rfl ?_
          simp [scientific, mem_optional_mul, LinuxCnc.digits, fraction, digit]
        · cases text with
          | nil => contradiction
          | cons d text =>
              refine none [c, d] text rfl ?_
              have digit : isDecimalDigit d := by simpa using more
              simp [scientific, mem_optional_mul, sign, LinuxCnc.digits, fraction, isSign, digit]
  · rintro starts source rest rfl member
    obtain ⟨sign, hs, _, ⟨whole, hw, tail, _, rfl⟩, rfl⟩ := member
    obtain ⟨some, digits⟩ := mem_several.1 hw
    obtain ⟨c, more, rfl⟩ := List.exists_cons_of_ne_nil some
    have digit := digits c List.mem_cons_self
    rcases mem_optional_sign.1 hs with rfl | rfl | rfl
    · simp [startsNumber, digit] at starts
    · simp [startsNumber, digit, isSignChar] at starts
    · simp [startsNumber, digit, isSignChar] at starts

/-- All of a text is the longest prefix that is a name, and the only one. -/
theorem found_name (text : List Char)
    : Found (ValueClass.name.form text) text
        (if text = [] ∨ '\n' ∈ text then none else some (text, [])) := by
  split
  · rename_i bad
    rintro source rest - ⟨rfl, some, line⟩
    exact bad.elim some line
  · rename_i good
    rw [not_or] at good
    refine ⟨List.append_nil text, ⟨rfl, good⟩, ?_⟩
    rintro more after - ⟨rfl, -⟩
    exact Nat.le_refl _

/-- The rule of a letter takes the longest prefix of the form of its class. -/
theorem found_match? (letter : Letter) (text : List Char)
    : Found ((ValueClass.ofLetter letter).form text) text ((ruleOf letter).match? text) := by
  obtain ⟨description, same⟩ := ruleOf_eq letter
  have reals : Found (if startsNumber text then scientific else plain) text
      ((Dialect.LinuxCnc.scientific.match? text).orElse fun _ =>
        Dialect.LinuxCnc.plain.match? text) := by
    cases found : Dialect.LinuxCnc.scientific.match? text with
    | none =>
        have none := (noPrefix_scientific text).1 (takes_scientific.noPrefix found)
        simpa [none] using takes_plain text
    | some pair =>
        have longest := takes_scientific.longest found
        have starts : startsNumber text = true := by
          by_contra none
          exact longest.not_noPrefix ((noPrefix_scientific text).2 (by simpa using none))
        simpa [starts, Found] using longest
  have alone (rule : Rule) (bare : rule.fallback = none)
      : rule.match? text = rule.pattern.match? text := by
    rw [Rule.match?, bare]
    cases rule.pattern.match? text <;> rfl
  rw [same]
  cases ValueClass.ofLetter letter with
  | real => exact reals
  | position => exact reals
  | code =>
      rw [alone _ rfl]
      exact takes_code text
  | integer =>
      rw [alone _ rfl]
      exact takes_natural text
  | tool =>
      rw [alone _ rfl]
      exact takes_natural text
  | name =>
      rw [alone _ rfl]
      have taken : (ValueClass.name.rule description).pattern.match? text = _ :=
        match?_restOfLine text
      rw [taken]
      exact found_name text

/-- The value that a value text of a class denotes. -/
def ValueClass.value? (source : List Char) : ValueClass → Option Value
  | real | position | code => realValue? source
  | integer => integerValue? source
  | tool | name => some (.text (trim source))

/-- Every value text of a letter is read as the value that it denotes. -/
theorem read?_of_longestPrefix {letter : Letter} {text source rest : List Char}
    (h : LongestPrefix ((ValueClass.ofLetter letter).form text) text source rest)
    : (ruleOf letter).read? source = (ValueClass.ofLetter letter).value? source := by
  obtain ⟨description, same⟩ := ruleOf_eq letter
  have member := h.member
  clear h
  have reals (member : source ∈ if startsNumber text then scientific else plain)
      : Value.read? .real source = realValue? source := by
    split at member
    · exact read?_real (List.forall_mem_nil _) (.of_scientific member)
    · obtain ⟨blanks, hb, body, hm, rfl⟩ := member
      exact read?_real hb (.of_plain hm)
  rw [same, Rule.read?]
  cases hc : ValueClass.ofLetter letter with
  | real => exact reals (by rwa [hc] at member)
  | position => exact reals (by rwa [hc] at member)
  | code =>
      rw [hc] at member
      obtain ⟨blanks, hb, body, hm, rfl⟩ := member
      exact read?_real hb (.of_code hm)
  | integer =>
      rw [hc] at member
      obtain ⟨blanks, hb, body, hm, rfl⟩ := member
      obtain ⟨some, digits⟩ := mem_several.1 hm
      exact read?_integer hb some digits
  | tool => rfl
  | name => rfl

end Gcode.LinuxCnc
