import Gcode.Text.Blank
import Gcode.Text.Digit
import Mathlib.Tactic.ByContra

/-! Decimal digits and blanks have no character in common, nor do blanks and letters.
The digits of ASCII are decimal digits, and no decimal digit or blank has a lower case.
-/

namespace Gcode.Text

variable {c : Char}

/-- Ranges that have no code point in common have no character in common. -/
theorem inRanges_eq_false {left right : List (Nat × Nat)}
    (apart : ∀ r ∈ left, ∀ s ∈ right, r.2 < s.1 ∨ s.2 < r.1) (member : inRanges left c)
    : inRanges right c = false := by
  by_contra both
  obtain ⟨r, hr, low, high⟩ := (inRanges_iff left c).1 member
  obtain ⟨s, hs, low', high'⟩ := (inRanges_iff right c).1 (by simpa using both)
  have := apart r hr s hs
  omega

theorem isBlank_of_isDecimalDigit (digit : isDecimalDigit c) : isBlank c = false :=
  inRanges_eq_false (by decide +kernel) digit

theorem isDecimalDigit_of_isBlank (blank : isBlank c) : isDecimalDigit c = false :=
  inRanges_eq_false (by decide +kernel) blank

theorem isDecimalDigit_of_isDigit (digit : c.isDigit) : isDecimalDigit c := by
  simp only [Char.isDigit, Bool.and_eq_true, decide_eq_true_eq, UInt32.le_iff_toNat_le] at digit
  exact (inRanges_iff digitRanges c).2 ⟨(0x30, 0x39), by decide, digit⟩

/-- Only the capital letters of ASCII have a lower case. -/
theorem toLower_of_not_capital (other : inRanges [(0x41, 0x5A)] c = false) : c.toLower = c := by
  unfold Char.toLower
  rw [dif_neg]
  intro given
  obtain ⟨low, high⟩ := given
  have member : inRanges [(0x41, 0x5A)] c :=
    (inRanges_iff _ c).2
      ⟨_, List.mem_cons_self, UInt32.le_iff_toNat_le.1 low, UInt32.le_iff_toNat_le.1 high⟩
  rw [member] at other
  contradiction

theorem toLower_of_isDecimalDigit (digit : isDecimalDigit c) : c.toLower = c :=
  toLower_of_not_capital (inRanges_eq_false (by decide +kernel) digit)

end Gcode.Text
