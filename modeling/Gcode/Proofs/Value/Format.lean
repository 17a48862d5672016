import Gcode.Proofs.Number.DecimalText
import Gcode.Value.Format

/-! Canonical texts of numbers have no blanks in them, in any format. -/

namespace Gcode

open Number Text

variable {c : Char}

namespace Number

theorem isBlank_of_isDigit (digit : c.isDigit) : isBlank c = false :=
  isBlank_of_isDecimalDigit (isDecimalDigit_of_isDigit digit)

/-- Whether a text has blanks can be computed. -/
theorem solid_of_all {text : List Char} (none : text.all fun c => !isBlank c)
    : ∀ c ∈ text, isBlank c = false := by
  simpa using none

theorem solid_signText (negative : Bool) : ∀ c ∈ signText negative, isBlank c = false :=
  (isSign_signText negative).forall rfl rfl

theorem solid_positional (n places : Nat) : ∀ c ∈ positional n places, isBlank c = false := by
  rw [positional_eq]
  split
  · exact fun c member => isBlank_of_isDigit (isDigit_of_mem_digits member)
  · refine List.forall_mem_append.2 ⟨?_, List.forall_mem_cons.2 ⟨rfl, ?_⟩⟩
    · exact fun c member => isBlank_of_isDigit (isDigit_of_mem_digits member)
    · exact fun c member => isBlank_of_isDigit (isDigit_of_mem_paddedDigits member)

theorem solid_intText (n : Int) : ∀ c ∈ intText n, isBlank c = false :=
  List.forall_mem_append.2
    ⟨solid_signText _, fun _ member => isBlank_of_isDigit (isDigit_of_mem_digits member)⟩

theorem solid_zeroText (places : Nat) : ∀ c ∈ zeroText places, isBlank c = false := by
  rw [zeroText]
  split
  · exact List.forall_mem_singleton.2 rfl
  · refine List.forall_mem_cons.2 ⟨rfl, fun c member => ?_⟩
    rw [(List.mem_replicate.1 member).2]
    rfl

namespace Binary64

theorem solid_toText (x : Binary64) : ∀ c ∈ x.toText, isBlank c = false := by
  cases x with
  | nan => exact solid_of_all rfl
  | infinity negative => exact List.forall_mem_append.2 ⟨solid_signText negative, solid_of_all rfl⟩
  | finite negative units representable =>
      refine List.forall_mem_append.2 ⟨solid_signText negative, ?_⟩
      split
      · exact List.forall_mem_singleton.2 rfl
      · rw [Numeral.toText]
        split <;> exact solid_positional _ _

theorem solid_toFixed (x : Binary64) (places : Nat) : ∀ c ∈ x.toFixed places, isBlank c = false := by
  cases x with
  | nan => exact solid_toText .nan
  | infinity negative => exact solid_toText (.infinity negative)
  | finite negative units representable =>
      rw [toFixed]
      split
      · exact solid_zeroText places
      · exact List.forall_mem_append.2 ⟨solid_signText negative, solid_positional _ _⟩

theorem solid_toCode (x : Binary64) : ∀ c ∈ x.toCode, isBlank c = false := by
  rw [toCode]
  split
  · exact List.forall_mem_cons.2 ⟨rfl, solid_toText x⟩
  · exact solid_toText x

end Binary64
end Number

theorem Value.read?_real_of_trim {text : List Char} {x : Binary64} (trimmed : trim text = text)
    (read : Binary64.read? text = some x) (finite : x.isFinite)
    : Value.read? .real text = some (.real x) := by
  simp [Value.read?, trimmed, read, Value.finiteReal?, finite]

namespace ValueFormat

theorem solid_renderNumber (format : ValueFormat) (x : Binary64) (xyDecimals : Precision)
    : ∀ c ∈ format.renderNumber x xyDecimals, isBlank c = false := by
  cases format with
  | real => exact x.solid_toFixed _
  | position => exact x.solid_toFixed _
  | code => exact x.solid_toCode
  | integer => exact solid_intText _
  | verbatim => exact x.solid_toText

theorem render_real (format : ValueFormat) (x : Binary64) (xyDecimals : Precision)
    : format.render (.real x) xyDecimals = format.renderNumber x xyDecimals := by
  cases format <;> rfl

/-- The formats of real numbers write an integer as the nearest number. -/
theorem render_ofInt {format : ValueFormat} (other : format ≠ .integer) (other' : format ≠ .verbatim)
    (n : Int64) (xyDecimals : Precision)
    : format.render (.integer n) xyDecimals = format.renderNumber (.ofInt n.toInt) xyDecimals := by
  cases format with
  | integer => contradiction
  | verbatim => contradiction
  | _ => simp only [render]

/-- An integer is written as an integer, or as a real number. -/
theorem render_integer (format : ValueFormat) (n : Int64) (xyDecimals : Precision)
    : format.render (.integer n) xyDecimals = intText n.toInt
      ∨ format.render (.integer n) xyDecimals
        = format.renderNumber (.ofInt n.toInt) xyDecimals := by
  cases format with
  | verbatim => exact .inl rfl
  | integer => exact .inl rfl
  | _ => exact .inr (render_ofInt (by simp) (by simp) n xyDecimals)

/-- A blank in a canonical text is one of the value, which is a text. -/
theorem mem_text_of_mem_render {format : ValueFormat} {value : Value} {xyDecimals : Precision}
    (member : c ∈ format.render value xyDecimals) (blank : isBlank c)
    : ∃ t, value = .text t ∧ c ∈ t := by
  by_contra none
  have solid : ∀ c ∈ format.render value xyDecimals, isBlank c = false := by
    cases value with
    | text t => exact absurd ⟨t, rfl, by cases format <;> exact member⟩ none
    | real x =>
        rw [render_real]
        exact solid_renderNumber format x xyDecimals
    | integer n =>
        rcases render_integer format n xyDecimals with text | text
        · rw [text]
          exact solid_intText n.toInt
        · rw [text]
          exact solid_renderNumber format (.ofInt n.toInt) xyDecimals
  rw [solid c member] at blank
  contradiction

end ValueFormat
end Gcode
