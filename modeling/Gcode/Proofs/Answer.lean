import Mathlib.Data.List.Forall2

/-! Answers of steps that may fail.
Steps one after the other give an answer when each of them gives one.
-/

namespace Gcode

variable {ε δ α β : Type} {answer : Except ε α}

/-- That an answer is no error can be computed where answers cannot be compared. -/
theorem exists_of_isOk (ok : answer.isOk) : ∃ value, answer = .ok value := by
  cases answer with
  | ok value => exact ⟨value, rfl⟩
  | error error => contradiction

theorem bind_eq_ok_iff {f : α → Except ε β} {result : β}
    : answer >>= f = .ok result ↔ ∃ value, answer = .ok value ∧ f value = .ok result := by
  cases answer <;> simp [bind, Except.bind]

theorem mapError_eq_ok_iff {f : ε → δ} {value : α}
    : answer.mapError f = .ok value ↔ answer = .ok value := by
  cases answer <;> simp [Except.mapError]

end Gcode
