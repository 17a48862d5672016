import Gcode.Proofs.Answer
import Gcode.Word.Scan

/-! Reading the words of a text step by step. -/

namespace Gcode

variable {settings : Settings} {text rest : List Char}

section Words

theorem scanWords_of_stop (h : Step.take settings text = .stop)
    : scanWords settings text = ([], none) := by
  rw [scanWords]
  split <;> simp_all

theorem scanWords_of_fail {error : Error} (h : Step.take settings text = .fail error rest)
    : scanWords settings text = ([], some error) := by
  rw [scanWords]
  split <;> simp_all

theorem scanWords_of_word {word : Word} (h : Step.take settings text = .word word rest)
    : scanWords settings text
      = (word :: (scanWords settings rest).1, (scanWords settings rest).2) := by
  rw [scanWords]
  split <;> simp_all

theorem readWords_of_stop (h : Step.take settings text = .stop)
    : readWords settings text = .ok [] := by
  rw [readWords, scanWords_of_stop h]

theorem readWords_of_fail {error : Error} (h : Step.take settings text = .fail error rest)
    : readWords settings text = .error error := by
  rw [readWords, scanWords_of_fail h]

theorem readWords_of_word {word : Word} (h : Step.take settings text = .word word rest)
    : readWords settings text = (readWords settings rest).map (word :: ·) := by
  rw [readWords, readWords, scanWords_of_word h]
  obtain ⟨words, error⟩ := scanWords settings rest
  cases error <;> rfl

theorem readWords_eq_ok_of_word {word : Word} {words : List Word}
    (h : Step.take settings text = .word word rest)
    : readWords settings text = .ok words
      ↔ ∃ more, readWords settings rest = .ok more ∧ words = word :: more := by
  rw [readWords_of_word h]
  cases readWords settings rest with
  | error error => simp [Except.map]
  | ok more => simp [Except.map, eq_comm]

theorem scanWords_of_readWords {words : List Word} (h : readWords settings text = .ok words)
    : scanWords settings text = (words, none) := by
  unfold readWords at h
  split at h <;> cases h
  assumption

/-- What is read from a text starts with the word that the first step takes, and goes on with the
words of the text after it.
-/
theorem take_of_readWords {word : Word} {words : List Word}
    (h : readWords settings text = .ok (word :: words))
    : ∃ rest, Step.take settings text = .word word rest ∧ readWords settings rest = .ok words := by
  cases step : Step.take settings text with
  | stop =>
      rw [readWords_of_stop step] at h
      cases h
  | fail error rest =>
      rw [readWords_of_fail step] at h
      cases h
  | word first rest =>
      obtain ⟨more, hm, same⟩ := (readWords_eq_ok_of_word step).1 h
      cases same
      exact ⟨rest, rfl, hm⟩

/-- A text has a single word when that is all that is read from it. -/
theorem readWord_eq_ok_iff {word : Word}
    : readWord settings text = .ok word ↔ readWords settings text = .ok [word] := by
  rw [readWord]
  cases readWords settings text with
  | error error => simp [bind, Except.bind]
  | ok words =>
      rcases words with _ | ⟨first, _ | ⟨second, more⟩⟩ <;> simp [bind, Except.bind, pure, Except.pure]

end Words

end Gcode
