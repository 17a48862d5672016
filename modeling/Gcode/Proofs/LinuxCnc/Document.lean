import Gcode.Proofs.Document
import Gcode.Proofs.LinuxCnc.Block

/-! Formatting a line again changes nothing.
The canonical text of a block has no character that a comment starts with, so the line that is
written falls into the same canonical text and the same comments.
-/

namespace Gcode.LinuxCnc

open Number Text
open CommentedLine (IsCode ofLine InOrder)

-----------------------------------------------------------------------------------------
-- Canonical text is code
-----------------------------------------------------------------------------------------

section Code

variable {xyDecimals : Precision} {word : Word} {words : List Word}

theorem isCode_of_numberText {text : List Char} (h : NumberText text) : ∀ c ∈ text, IsCode c := by
  intro c member
  refine ⟨?_, ?_⟩
  · rintro rfl
    exact absurd (h.kinds.2 _ member) (by decide)
  · rintro rfl
    exact absurd (h.kinds.2 _ member) (by decide)

theorem isCode_letter (letter : Letter) : IsCode letter.char := by
  have all := letter.all_of_alphabet (p := fun c => decide (IsCode c)) rfl
  exact of_decide_eq_true all

theorem WellRead.isCode_toText (h : WellRead xyDecimals word)
    (name : ∀ t, word.value = .text t → ∀ c ∈ t, IsCode c) : ∀ c ∈ word.toText, IsCode c := by
  rw [h.toText_eq]
  refine List.forall_mem_cons.2 ⟨isCode_letter word.letter, ?_⟩
  by_cases isName : ValueClass.ofLetter word.letter = .name
  · have holds := h.holds
    rw [isName] at holds ⊢
    generalize word.value = value at holds name
    cases holds with
    | name => exact name _ rfl
  · exact isCode_of_numberText (valueText_mem xyDecimals h.holds isName []).2

/-- The canonical text of words that were read from code is code. -/
theorem isCode_wordsText (all : ∀ word ∈ words, WellRead xyDecimals word)
    (name : ∀ word ∈ words, ∀ t, word.value = .text t → ∀ c ∈ t, IsCode c)
    : ∀ c ∈ wordsText words, IsCode c := by
  intro c member
  rcases mem_intercalate member with rfl | ⟨_, isText, inside⟩
  · decide
  · obtain ⟨word, isWord, rfl⟩ := List.mem_map.1 isText
    exact (all word isWord).isCode_toText (name word isWord) c inside

end Code

-----------------------------------------------------------------------------------------
-- Formatting twice
-----------------------------------------------------------------------------------------

section Stable

variable {xyDecimals : Precision} {verify : Bool} {words : List Word}

theorem isCode_canonical {text : List Char} (all : ∀ word ∈ words, WellRead xyDecimals word)
    (read : readWords { xyDecimals, verify } (normalize text) = .ok words)
    (code : ∀ c ∈ text, IsCode c) : ∀ c ∈ wordsText (sorted words), IsCode c := by
  refine isCode_wordsText (fun word member => all word (mem_sorted.1 member)) ?_
  intro word member t isText c inside
  have source := mem_of_readWords read (mem_sorted.1 member) isText inside
  rcases mem_normalize source with rfl | source
  · decide
  · exact code c source

theorem sorted_eq_nil : sorted words = [] ↔ words = [] := by
  simp only [List.eq_nil_iff_forall_not_mem, mem_sorted]

theorem wordsText_eq_nil : wordsText words = [] ↔ words = [] := by
  cases words with
  | nil => simp [wordsText]
  | cons word words => simp [wordsText_cons, Word.toText]

theorem readLine_of_words {line : List Char}
    (read : readWords { xyDecimals, verify } (normalize (ofLine line).code) = .ok words)
    (agree : checked verify words = .ok ())
    : readLine { xyDecimals, verify } ModalTable.linuxCnc.classify line
      = .ok (blockOf (ofLine line).code words, (ofLine line).comments) :=
  readLine_eq_ok_iff.2 ⟨read_eq_ok_iff.2 ⟨words, read, agree, rfl⟩, rfl⟩

/-- A line whose words are read and agree is written as their canonical text, unless there are
none, and its comments.
-/
theorem formatLine_of_words {line : List Char}
    (read : readWords { xyDecimals, verify } (normalize (ofLine line).code) = .ok words)
    (agree : checked verify words = .ok ())
    : Document.formatLine { xyDecimals, verify } line
      = [' '].intercalate
          ((if wordsText (sorted words) = [] then [] else [wordsText (sorted words)])
            ++ (ofLine line).comments) := by
  have none : (blockOf (ofLine line).code words).isEmpty ↔ wordsText (sorted words) = [] := by
    rw [wordsText_eq_nil, sorted_eq_nil]
    exact List.isEmpty_iff
  rw [formatLine_of_ok (readLine_of_words read agree), toText_blockOf]
  simp only [none]

end Stable

/-- Two readings of lines give the same canonical text and the same comments, or the same error. -/
def SameReading : Except Error (Block × List (List Char)) → Except Error (Block × List (List Char))
    → Prop
  | .ok (block, comments), .ok (other, others) => other.toText = block.toText ∧ others = comments
  | .error error, .error other => other = error
  | _, _ => False

theorem SameReading.eq_error_iff {found other : Except Error (Block × List (List Char))}
    (h : SameReading found other) {error : Error} : other = .error error ↔ found = .error error := by
  cases found <;> cases other <;> simp_all [SameReading]

/-- A line that was formatted reads as the line it was, and formatting it again changes nothing.
The canonical text of its words and its comments are told apart again, and what is left of the
spaces between them does not change how the words are read.
-/
theorem formatLine_stable (xyDecimals : Precision) (verify : Bool) (line : List Char)
    : SameReading (readLine { xyDecimals, verify } ModalTable.linuxCnc.classify line)
        (readLine { xyDecimals, verify } ModalTable.linuxCnc.classify
          (Document.formatLine { xyDecimals, verify } line))
      ∧ Document.formatLine { xyDecimals, verify } (Document.formatLine { xyDecimals, verify } line)
        = Document.formatLine { xyDecimals, verify } line := by
  cases h : readLine { xyDecimals, verify } ModalTable.linuxCnc.classify line with
  | error error =>
      have same := formatLine_of_error h
      rw [same, h]
      exact ⟨rfl, same⟩
  | ok found =>
      obtain ⟨block, comments⟩ := found
      obtain ⟨readBlock, rfl⟩ := readLine_eq_ok_iff.1 h
      obtain ⟨words, read, agree, rfl⟩ := read_eq_ok_iff.1 readBlock
      obtain ⟨all, names⟩ := wellRead_of_readWords (spaced_normalize _) read
      have written := formatLine_of_words read agree
      obtain ⟨blanks, hb, apart⟩ := CommentedLine.ofLine_code_comments
        (isCode_canonical all read (CommentedLine.isCode_code line))
        (CommentedLine.inOrder_comments line)
      rw [← written] at apart
      have again : readWords { xyDecimals, verify }
          (normalize (ofLine (Document.formatLine { xyDecimals, verify } line)).code)
          = .ok ((sorted words).map (rereadWord xyDecimals)) := by
        rw [apart, normalize_append_blanks hb]
        exact readWords_canonical verify all names
      have agreeAgain := (checked_reread verify all).trans agree
      have shown := wordsText_sorted_reread all
      refine ⟨?_, ?_⟩
      · rw [readLine_of_words again agreeAgain]
        refine ⟨?_, by rw [apart]⟩
        rw [toText_blockOf, toText_blockOf, shown]
      · rw [formatLine_of_words again agreeAgain, shown, apart, written]

end Gcode.LinuxCnc
