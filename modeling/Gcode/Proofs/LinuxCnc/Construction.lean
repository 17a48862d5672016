import Gcode.Proofs.LinuxCnc.Reread
import Gcode.Proofs.Word.Construction

/-! Words of the built-in dialect that were read, built again.
The canonical texts of its words are value texts again, but for a name of blanks alone: trimming
leaves nothing of it, and a name is never empty.
-/

namespace Gcode.LinuxCnc

open Text

variable {xyDecimals : Precision} {verify : Bool} {text : List Char} {word : Word}

theorem valueText_wordOf (letter : Letter) (value : Value)
    : (wordOf xyDecimals (letter, value)).valueText
      = (ValueClass.ofLetter letter).format.render value xyDecimals := by
  rw [Word.valueText, wordOf, format_ruleOf]

/-- The canonical text of a value of its class is taken whole. -/
theorem WellRead.readsBack (h : WellRead xyDecimals word) : word.ReadsBack := by
  have longest := longestPrefix_valueText xyDecimals h.holds stops_nil fun _ => rfl
  rw [h.eq, Word.ReadsBack, valueText_wordOf]
  rw [List.append_nil] at longest
  exact (found_match? word.letter _).unique longest

/-- A name is built again unless nothing is left of it. -/
theorem readsBack_name {letter : Letter} {t : List Char}
    (isName : ValueClass.ofLetter letter = .name) (line : '\n' ∉ t)
    : (wordOf xyDecimals (letter, .text t)).ReadsBack ↔ t ≠ [] := by
  have found := found_match? letter t
  have whole := found_name t
  rw [isName] at found
  rw [Word.ReadsBack, valueText_wordOf, isName]
  change (ruleOf letter).match? t = some (t, []) ↔ t ≠ []
  rw [found.unique whole]
  simp [line]

/-- A word that was read reads back from its canonical text, unless it is an empty name. -/
theorem readsBack_of_mem_scanWords
    (member : word ∈ (scanWords { xyDecimals, verify } text).1)
    : word.ReadsBack ↔ ¬ (word.letter.char = 'O' ∧ word.value = .text []) := by
  obtain ⟨piece, after, rfl, reads⟩ := exists_piece_of_mem_scanWords member
  obtain ⟨eq, longest, value⟩ := piece_of_linuxCnc reads
  rw [← isName_iff]
  by_cases isName : ValueClass.ofLetter piece.word.letter = .name
  · rw [isName] at longest value
    have line : '\n' ∉ trim piece.source := fun inside =>
      longest.member.2.2 (mem_of_mem_trim inside)
    have shown : piece.word.value = .text (trim piece.source) := (Option.some.inj value).symm
    rw [eq, shown, readsBack_name isName line]
    simp [wordOf, isName]
  · have well : WellRead xyDecimals piece.word := ⟨eq, holds_of_numeric isName longest value⟩
    simp [isName, well.readsBack]

/-- A word that was read is built again exactly where its canonical text is a value text of its
letter from end to end, and the constructor refuses that text otherwise. In the built-in dialect
this is only so for a name of which trimming leaves nothing; other dialects can have a pattern and
a format that do not fit each other.
-/
theorem rebuilt_iff_readsBack (settings : Settings) (text : List Char)
    : (∀ word ∈ (scanWords settings text).1,
        Word.ofValue settings word.letter.char word.value
          = (if word.ReadsBack then .ok word
            else .error (.wordValueInvalid word.letter.char word.valueText))
        ∧ word.eq word)
      ∧ ∀ xyDecimals verify, ∀ word ∈ (scanWords { xyDecimals, verify } text).1,
          word.ReadsBack ↔ ¬ (word.letter.char = 'O' ∧ word.value = .text []) :=
  ⟨fun _ member => ⟨ofValue_of_mem_scanWords member, eq_self_of_mem_scanWords member⟩,
    fun _ _ _ member => readsBack_of_mem_scanWords member⟩

/-- A code is built again as it was read. -/
theorem rebuilt_code
    : ∃ word ∈ (scanWords {} ['g', '1']).1,
        word.letter.char = 'G' ∧ Word.ofValue {} word.letter.char word.value = .ok word := by
  have found : (scanWords {} ['g', '1']).1.any fun word => word.letter.char = 'G' := by
    decide +kernel
  obtain ⟨word, member, code⟩ := List.any_eq_true.1 found
  have letter := of_decide_eq_true code
  obtain ⟨rebuilt, reads⟩ := rebuilt_iff_readsBack {} ['g', '1']
  have readsBack : word.ReadsBack := (reads .standard true word member).2 (by simp [letter])
  refine ⟨word, member, letter, ?_⟩
  rw [(rebuilt word member).1, if_pos readsBack]

/-- A letter `O` with a blank after it is read as a name that cannot be built. -/
theorem read_name_not_rebuilt
    : ∃ word ∈ (scanWords {} ['O', ' ']).1,
        word.letter.char = 'O' ∧ word.value = .text []
        ∧ Word.ofValue {} word.letter.char word.value
          = .error (.wordValueInvalid word.letter.char word.valueText) := by
  have found : (scanWords {} ['O', ' ']).1.any fun word =>
      word.letter.char = 'O' ∧ word.value = .text [] := by
    decide +kernel
  obtain ⟨word, member, both⟩ := List.any_eq_true.1 found
  obtain ⟨letter, value⟩ := of_decide_eq_true both
  have refused : ¬ word.ReadsBack :=
    fun reads => (readsBack_of_mem_scanWords member).1 reads ⟨letter, value⟩
  refine ⟨word, member, letter, value, ?_⟩
  rw [ofValue_of_mem_scanWords member, if_neg refused]

end Gcode.LinuxCnc
