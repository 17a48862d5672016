import Gcode.Pattern.Basic

/-! A match and what comes after it make up the text that was matched. -/

namespace Gcode.Pattern

/-- A run ends in the text it started in, unless it ends where it would without a match. -/
theorem Program.run_whole {program : Program} {before after : List Char} {todo : List Nat}
    {best : Option Cursor} {place : Cursor}
    (h : program.run before todo best after = some place)
    : place.whole = (Cursor.mk before after).whole ∨ best = some place := by
  induction after generalizing before todo best with
  | nil =>
      simp only [run] at h
      split at h
      · cases h
        exact .inl rfl
      · exact .inr h
  | cons c after ih =>
      simp only [run] at h
      have hb {best' : Option Cursor} (hbest : best' = some place)
          (hdef : best' = if (program.front ⟨before, c :: after⟩ todo).matched then
            some ⟨before, c :: after⟩ else best)
          : place.whole = (Cursor.mk before (c :: after)).whole ∨ best = some place := by
        subst hdef
        split at hbest
        · cases hbest
          exact .inl rfl
        · exact .inr hbest
      split at h
      · exact hb h rfl
      · rcases ih h with hw | hbest
        · exact .inl (by simpa [Cursor.whole] using hw)
        · exact hb hbest rfl

/-- A match and the text after it make up the text. -/
theorem match?_append {p : Pattern} {text source rest : List Char}
    (h : p.match? text = some (source, rest)) : source ++ rest = text := by
  simp only [match?, Option.map_eq_some_iff, Prod.mk.injEq] at h
  obtain ⟨place, h, rfl, rfl⟩ := h
  rcases Program.run_whole h with hw | hn
  · simpa [Cursor.whole] using hw
  · contradiction

end Gcode.Pattern
