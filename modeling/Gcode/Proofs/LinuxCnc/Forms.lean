import Gcode.Proofs.Number.DecimalText
import Gcode.Proofs.Pattern.Form
import Gcode.Proofs.Text.Kinds

/-! The forms of value texts, and the kinds of characters that they are made of.
No character is of two kinds, so a form says at each character how it goes on.
-/

namespace Gcode.LinuxCnc

open Number Text

-----------------------------------------------------------------------------------------
-- Kinds of characters
-----------------------------------------------------------------------------------------

def isPoint (c : Char) : Bool :=
  c == '.'

/-- The letter of an exponent. -/
def isMark (c : Char) : Bool :=
  c == 'e' || c == 'E'

section Kinds

variable {c : Char}

theorem of_isSignChar (sign : isSignChar c)
    : isDecimalDigit c = false ∧ isBlank c = false ∧ isPoint c = false ∧ isMark c = false := by
  simp only [isSignChar, Bool.or_eq_true, beq_iff_eq] at sign
  rcases sign with rfl | rfl <;> decide

theorem of_isPoint (point : isPoint c)
    : isDecimalDigit c = false ∧ isBlank c = false ∧ isSignChar c = false ∧ isMark c = false := by
  simp only [isPoint, beq_iff_eq] at point
  subst point
  decide

theorem of_isMark (mark : isMark c)
    : isDecimalDigit c = false ∧ isBlank c = false ∧ isSignChar c = false ∧ isPoint c = false := by
  simp only [isMark, Bool.or_eq_true, beq_iff_eq] at mark
  rcases mark with rfl | rfl <;> decide

theorem of_isDecimalDigit (digit : isDecimalDigit c)
    : isBlank c = false ∧ isSignChar c = false ∧ isPoint c = false ∧ isMark c = false := by
  refine ⟨isBlank_of_isDecimalDigit digit, ?_, ?_, ?_⟩
  · by_contra sign
    simp [of_isSignChar (by simpa using sign)] at digit
  · by_contra point
    simp [of_isPoint (by simpa using point)] at digit
  · by_contra mark
    simp [of_isMark (by simpa using mark)] at digit

theorem of_isBlank (blank : isBlank c)
    : isDecimalDigit c = false ∧ isSignChar c = false ∧ isPoint c = false ∧ isMark c = false := by
  refine ⟨isDecimalDigit_of_isBlank blank, ?_, ?_, ?_⟩
  · by_contra sign
    simp [of_isSignChar (by simpa using sign)] at blank
  · by_contra point
    simp [of_isPoint (by simpa using point)] at blank
  · by_contra mark
    simp [of_isMark (by simpa using mark)] at blank

end Kinds

-----------------------------------------------------------------------------------------
-- Forms
-----------------------------------------------------------------------------------------

open Form

/-- Decimal digits of any script, at least one of them. -/
def digits : Form :=
  several isDecimalDigit

def sign : Form :=
  one isSignChar

def point : Form :=
  one isPoint

/-- An exponent with its letter. -/
def exponent : Form :=
  one isMark * (optional sign * digits)

/-- What may follow the digits of a real number: only after a point there is an exponent. -/
def fraction : Form :=
  optional (point * (many isDecimalDigit * optional exponent))

/-- A real number, perhaps with an exponent. -/
def scientific : Form :=
  optional sign * (digits * fraction)

/-- The digits of a plain real number, with a point among or around them. -/
def decimal : Form :=
  digits * (optional point * many isDecimalDigit) + point * digits

/-- A plain real number, after blanks. -/
def plain : Form :=
  many isBlank * (optional sign * decimal)

/-- A natural number, after blanks. -/
def natural : Form :=
  many isBlank * digits

/-- A code with at most one digit after its point, after blanks. -/
def code : Form :=
  many isBlank * (digits * optional (point * one isDecimalDigit))

-----------------------------------------------------------------------------------------
-- Numbers of every form
-----------------------------------------------------------------------------------------

/-- Nothing, or an exponent with its letter. -/
def IsExponent (text : List Char) : Prop :=
  text = [] ∨ ∃ mark sign power, text = mark :: (sign ++ power) ∧ isMark mark ∧ IsSign sign
    ∧ power ≠ [] ∧ ∀ c ∈ power, isDecimalDigit c

/-- What the numbers of all forms have in common, the blanks before them apart. -/
inductive NumberText : List Char → Prop
  | whole (sign whole : List Char) (hs : IsSign sign) (some : whole ≠ []) (hw : ∀ c ∈ whole, isDecimalDigit c)
    : NumberText (sign ++ whole)
  | point (sign whole decimals tail : List Char) (hs : IsSign sign)
    (some : whole ++ decimals ≠ []) (hw : ∀ c ∈ whole, isDecimalDigit c)
    (hd : ∀ c ∈ decimals, isDecimalDigit c) (ht : IsExponent tail)
    : NumberText (sign ++ (whole ++ '.' :: (decimals ++ tail)))

section Members

variable {text : List Char}

theorem mem_optional_sign : text ∈ optional sign ↔ IsSign text := by
  simp only [mem_optional, sign, mem_one, IsSign, isSignChar, Bool.or_eq_true, beq_iff_eq]
  constructor
  · rintro (rfl | ⟨_, rfl | rfl, rfl⟩) <;> simp
  · rintro (rfl | rfl | rfl) <;> simp

theorem mem_optional_exponent : text ∈ optional exponent ↔ IsExponent text := by
  rw [mem_optional, IsExponent]
  refine or_congr Iff.rfl ?_
  constructor
  · intro given
    obtain ⟨_, ⟨mark, hm, rfl⟩, _, ⟨sign, hs, power, hp, rfl⟩, rfl⟩ := given
    obtain ⟨some, all⟩ := mem_several.1 hp
    exact ⟨mark, sign, power, rfl, hm, mem_optional_sign.1 hs, some, all⟩
  · intro given
    obtain ⟨mark, sign, power, rfl, hm, hs, some, all⟩ := given
    exact cons_mem_one_mul.2
      ⟨hm, Language.append_mem_mul (mem_optional_sign.2 hs) (mem_several.2 ⟨some, all⟩)⟩

theorem NumberText.of_scientific (member : text ∈ scientific) : NumberText text := by
  obtain ⟨sign, hs, _, ⟨whole, hw, tail, ht, rfl⟩, rfl⟩ := member
  obtain ⟨some, hw⟩ := mem_several.1 hw
  have hs := mem_optional_sign.1 hs
  rcases mem_optional.1 ht with rfl | ⟨_, ⟨c, hc, rfl⟩, _, ⟨decimals, hd, tail, he, rfl⟩, rfl⟩
  · simpa using NumberText.whole sign whole hs some hw
  · rw [beq_iff_eq.1 hc]
    exact .point sign whole decimals tail hs (by simp [some]) hw hd (mem_optional_exponent.1 he)

theorem NumberText.of_plain (member : text ∈ optional sign * decimal) : NumberText text := by
  obtain ⟨sign, hs, body, hb, rfl⟩ := member
  have hs := mem_optional_sign.1 hs
  rcases (Language.mem_add _ _ _).1 hb with hb | hb
  · obtain ⟨whole, hw, _, ⟨dot, hp, decimals, hd, rfl⟩, rfl⟩ := hb
    obtain ⟨some, hw⟩ := mem_several.1 hw
    rcases mem_optional.1 hp with rfl | ⟨c, hc, rfl⟩
    · refine .whole sign (whole ++ decimals) hs (by simp [some]) ?_
      exact fun c member => (List.mem_append.1 member).elim (hw c) (hd c)
    · rw [beq_iff_eq.1 hc]
      simpa using NumberText.point sign whole decimals [] hs (by simp [some]) hw hd (.inl rfl)
  · obtain ⟨_, ⟨c, hc, rfl⟩, decimals, hd, rfl⟩ := hb
    obtain ⟨some, hd⟩ := mem_several.1 hd
    rw [beq_iff_eq.1 hc]
    simpa using NumberText.point sign [] decimals [] hs (by simpa using some) (by simp) hd (.inl rfl)

theorem NumberText.of_code
    (member : text ∈ digits * optional (LinuxCnc.point * one isDecimalDigit))
    : NumberText text := by
  obtain ⟨whole, hw, tail, ht, rfl⟩ := member
  obtain ⟨some, hw⟩ := mem_several.1 hw
  rcases mem_optional.1 ht with rfl | ⟨_, ⟨c, hc, rfl⟩, _, ⟨d, hd, rfl⟩, rfl⟩
  · simpa using NumberText.whole [] whole (.inl rfl) some hw
  · rw [beq_iff_eq.1 hc]
    have digit : ∀ c ∈ [d], isDecimalDigit c := by simpa using hd
    simpa using NumberText.point [] whole [d] [] (.inl rfl) (by simp [some]) hw digit (.inl rfl)

end Members

/-- A number has a character, and its characters are of the kinds that numbers are made of. -/
theorem NumberText.kinds {text : List Char} (h : NumberText text)
    : text ≠ []
      ∧ ∀ c ∈ text, isDecimalDigit c ∨ isSignChar c ∨ isPoint c ∨ isMark c := by
  have inSign {sign : List Char} (hs : IsSign sign) : ∀ c ∈ sign, isSignChar c :=
    hs.forall rfl rfl
  cases h with
  | whole sign whole hs some hw =>
      refine ⟨by simp [some], ?_⟩
      intro c member
      rcases List.mem_append.1 member with member | member
      · exact .inr (.inl (inSign hs c member))
      · exact .inl (hw c member)
  | point sign whole decimals tail hs _ hw hd ht =>
      refine ⟨by simp, ?_⟩
      intro c member
      simp only [List.mem_append, List.mem_cons] at member
      rcases member with member | member | rfl | member | member
      · exact .inr (.inl (inSign hs c member))
      · exact .inl (hw c member)
      · exact .inr (.inr (.inl rfl))
      · exact .inl (hd c member)
      · rcases ht with rfl | ⟨mark, sign', power, rfl, hm, hs', _, hp⟩
        · contradiction
        · simp only [List.mem_append, List.mem_cons] at member
          rcases member with rfl | member | member
          · exact .inr (.inr (.inr hm))
          · exact .inr (.inl (inSign hs' c member))
          · exact .inl (hp c member)

/-- There are no blanks in a number. -/
theorem NumberText.solid {text : List Char} (h : NumberText text)
    : ∀ c ∈ text, isBlank c = false := by
  intro c member
  rcases h.kinds.2 c member with digit | sign | point | mark
  · exact (of_isDecimalDigit digit).1
  · exact (of_isSignChar sign).2.1
  · exact (of_isPoint point).2.1
  · exact (of_isMark mark).2.1

end Gcode.LinuxCnc
