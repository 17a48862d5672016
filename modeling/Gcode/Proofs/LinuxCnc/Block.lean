import Gcode.Proofs.Block
import Gcode.Proofs.LinuxCnc.Reread

/-! The canonical text of a block reads back to the block.
Instructions come before modal parameters there, and both keep their order; the words are read
from the canonical text as they were written, so they are sorted and checked as before.
-/

namespace Gcode.LinuxCnc

open Text

-----------------------------------------------------------------------------------------
-- Blocks of words
-----------------------------------------------------------------------------------------

/-- The instructions among words, with their groups. -/
def instructionsOf (words : List Word) : List Instruction :=
  (words.filter ModalTable.linuxCnc.isCode).map fun word =>
    ⟨word, ModalTable.linuxCnc.groupOf word, []⟩

/-- The words that are no instructions. -/
def paramsOf (words : List Word) : List Word :=
  words.filter fun word => !ModalTable.linuxCnc.isCode word

/-- Instructions before modal parameters. -/
def sorted (words : List Word) : List Word :=
  words.filter ModalTable.linuxCnc.isCode ++ paramsOf words

/-- The block of the words of a text. -/
def blockOf (text : List Char) (words : List Word) : Block where
  rawText := some text
  source := some (normalize text)
  words := words
  instructions := instructionsOf words
  modalParams := paramsOf words
  dialect := .linuxCnc

section Read

variable {xyDecimals : Precision} {verify : Bool} {text : List Char} {words : List Word}
  {block : Block}

/-- The words of a block are checked for conflicts where that is asked for. -/
def checked (verify : Bool) (words : List Word) : Except Error Unit :=
  if verify then Instruction.verify (instructionsOf words) else .ok ()

/-- A block is read from words that can be read and, where that is asked for, agree. -/
theorem read_eq_ok_iff
    : Block.read { xyDecimals, verify } ModalTable.linuxCnc.classify text = .ok block
      ↔ ∃ words, readWords { xyDecimals, verify } (normalize text) = .ok words
          ∧ checked verify words = .ok () ∧ block = blockOf text words := by
  simp only [Block.read_eq_ok_iff, ← ModalTable.checked_eq_ok_iff]
  rfl

theorem toText_blockOf : (blockOf text words).toText = wordsText (sorted words) := by
  simp [Block.toText, blockOf, instructionsOf, wordsText, sorted, Instruction.toText,
    Instruction.words, Function.comp_def, List.intercalate]

end Read

-----------------------------------------------------------------------------------------
-- Words in canonical order
-----------------------------------------------------------------------------------------

section Sorted

variable {xyDecimals : Precision} {words : List Word} {word : Word}

theorem mem_sorted : word ∈ sorted words ↔ word ∈ words := by
  simp only [sorted, paramsOf, List.mem_append, List.mem_filter]
  cases ModalTable.linuxCnc.isCode word <;> simp

theorem isCode_iff
    : ModalTable.linuxCnc.isCode word ↔ word.letter.char = 'G' ∨ word.letter.char = 'M' := by
  have letters : ModalTable.linuxCnc.codeLetters = ['G', 'M'] := rfl
  simp [ModalTable.isCode, letters]

theorem class_of_isCode (h : ModalTable.linuxCnc.isCode word)
    : ValueClass.ofLetter word.letter = .code := by
  unfold ValueClass.ofLetter
  rcases isCode_iff.1 h with letter | letter <;> rw [letter] <;> rfl

/-- A word of a code letter reads back as it is. -/
theorem rereadWord_of_isCode (h : WellRead xyDecimals word)
    (code : ModalTable.linuxCnc.isCode word) : rereadWord xyDecimals word = word := by
  have same : (ValueClass.ofLetter word.letter).reread xyDecimals word.value = word.value := by
    rw [class_of_isCode code]
    cases word.value <;> rfl
  rw [rereadWord, same]
  exact h.eq.symm

/-- Moving the instructions to the front leaves a name at the end. -/
theorem nameLast_sorted (h : NameLast words) : NameLast (sorted words) := by
  refine List.pairwise_append.2 ⟨h.filter _, h.filter _, ?_⟩
  intro word member _ _ isName
  rw [class_of_isCode (List.mem_filter.1 member).2] at isName
  contradiction

theorem isCode_rereadWord (word : Word)
    : ModalTable.linuxCnc.isCode (rereadWord xyDecimals word) = ModalTable.linuxCnc.isCode word :=
  rfl

theorem map_rereadWord_codes (all : ∀ word ∈ words, WellRead xyDecimals word)
    : (words.filter ModalTable.linuxCnc.isCode).map (rereadWord xyDecimals)
      = words.filter ModalTable.linuxCnc.isCode := by
  refine (List.map_congr_left fun word member => ?_).trans (List.map_id _)
  obtain ⟨inside, code⟩ := List.mem_filter.1 member
  exact rereadWord_of_isCode (all word inside) code

/-- Words that were written in order and read again have the same instructions. -/
theorem filter_isCode_reread (all : ∀ word ∈ words, WellRead xyDecimals word)
    : ((sorted words).map (rereadWord xyDecimals)).filter ModalTable.linuxCnc.isCode
      = words.filter ModalTable.linuxCnc.isCode := by
  have none : (paramsOf words).filter ModalTable.linuxCnc.isCode = [] := by
    simp [paramsOf]
  rw [List.filter_map, Function.comp_def]
  simp only [isCode_rereadWord]
  rw [sorted, List.filter_append, none, List.append_nil, List.filter_filter]
  simpa using map_rereadWord_codes all

/-- Words that were written in order and read again have the same modal parameters, read again. -/
theorem paramsOf_reread
    : paramsOf ((sorted words).map (rereadWord xyDecimals))
      = (paramsOf words).map (rereadWord xyDecimals) := by
  have again : paramsOf (sorted words) = paramsOf words := by
    simp [sorted, paramsOf]
  rw [← again, paramsOf, List.filter_map, Function.comp_def]
  rfl

theorem instructionsOf_reread (all : ∀ word ∈ words, WellRead xyDecimals word)
    : instructionsOf ((sorted words).map (rereadWord xyDecimals)) = instructionsOf words := by
  rw [instructionsOf, filter_isCode_reread all, instructionsOf]

theorem sorted_reread (all : ∀ word ∈ words, WellRead xyDecimals word)
    : sorted ((sorted words).map (rereadWord xyDecimals))
      = (sorted words).map (rereadWord xyDecimals) := by
  have parts : (sorted words).map (rereadWord xyDecimals)
      = words.filter ModalTable.linuxCnc.isCode
        ++ (paramsOf words).map (rereadWord xyDecimals) := by
    rw [sorted, List.map_append, map_rereadWord_codes all]
  rw [sorted, filter_isCode_reread all, paramsOf_reread, parts]

theorem wordsText_reread (all : ∀ word ∈ words, WellRead xyDecimals word)
    : wordsText (words.map (rereadWord xyDecimals)) = wordsText words := by
  rw [wordsText, wordsText, List.map_map]
  congr 1
  exact List.map_congr_left fun word member => (all word member).toText_rereadWord

end Sorted

/-- How the value of a modal parameter changes when its canonical text is read: a real number is
rounded to three places and a position to those of the settings, each to the nearest number, and
every other value stays as it is.
-/
def IsReread (xyDecimals : Precision) (before after : Word) : Prop :=
  after.letter = before.letter
  ∧ after.value = match before.rule.format, before.value with
      | .real, .real x => .real (x.roundedTo 3)
      | .position, .real x => .real (x.roundedTo xyDecimals.places)
      | _, value => value

section Canonical

variable {xyDecimals : Precision} (verify : Bool) {words : List Word}

theorem isReread_rereadWord {word : Word} (h : WellRead xyDecimals word)
    : IsReread xyDecimals word (rereadWord xyDecimals word) := by
  refine ⟨rfl, ?_⟩
  rw [h.format_eq]
  change (ValueClass.ofLetter word.letter).reread xyDecimals word.value = _
  cases ValueClass.ofLetter word.letter <;> cases word.value <;> rfl

/-- The words of a block, written in canonical order, are read again in that order. -/
theorem readWords_canonical (all : ∀ word ∈ words, WellRead xyDecimals word)
    (names : NameLast words)
    : readWords { xyDecimals, verify } (normalize (wordsText (sorted words)))
      = .ok ((sorted words).map (rereadWord xyDecimals)) := by
  have all' : ∀ word ∈ sorted words, WellRead xyDecimals word :=
    fun word member => all word (mem_sorted.1 member)
  have names' := nameLast_sorted names
  have start : (wordsText (sorted words)).dropWhile isBlank = wordsText (sorted words) :=
    dropWhile_of_stops (stops_wordsText _)
  have normal : normalize (wordsText (sorted words)) = wordsText (sorted words) :=
    (normalize_of_spaced (spaced_wordsText all' names')).trans start
  rw [normal]
  exact readWords_wordsText all' names' start

/-- The instructions are read again as they were, so they agree as before. -/
theorem checked_reread (all : ∀ word ∈ words, WellRead xyDecimals word)
    : checked verify ((sorted words).map (rereadWord xyDecimals)) = checked verify words := by
  rw [checked, instructionsOf_reread all, checked]

/-- The words of a block that were read again have the same canonical text. -/
theorem wordsText_sorted_reread (all : ∀ word ∈ words, WellRead xyDecimals word)
    : wordsText (sorted ((sorted words).map (rereadWord xyDecimals)))
      = wordsText (sorted words) := by
  rw [sorted_reread all]
  exact wordsText_reread fun word member => all word (mem_sorted.1 member)

end Canonical

/-- The canonical text of a block reads back to a block with the same instructions and the same
modal parameters, reals and positions rounded to the places that they are written with; and this
block has the same canonical text. The words of the block were read from spaced text, so their
canonical texts are taken whole, one after the other.
-/
theorem read_toText (xyDecimals : Precision) (verify : Bool) (text : List Char) (block : Block)
    (h : Block.read { xyDecimals, verify } ModalTable.linuxCnc.classify text = .ok block)
    : ∃ again,
        Block.read { xyDecimals, verify } ModalTable.linuxCnc.classify block.toText = .ok again
        ∧ again.instructions = block.instructions
        ∧ List.Forall₂ (IsReread xyDecimals) block.modalParams again.modalParams
        ∧ again.toText = block.toText := by
  obtain ⟨words, read, agree, rfl⟩ := read_eq_ok_iff.1 h
  obtain ⟨all, names⟩ := wellRead_of_readWords (spaced_normalize text) read
  have params : ∀ word ∈ paramsOf words, WellRead xyDecimals word :=
    fun word member => all word (List.mem_filter.1 member).1
  rw [toText_blockOf]
  have same := (checked_reread verify all).trans agree
  refine ⟨_, read_eq_ok_iff.2 ⟨_, readWords_canonical verify all names, same, rfl⟩,
    instructionsOf_reread all, ?_, ?_⟩
  · change List.Forall₂ _ (paramsOf words) (paramsOf _)
    rw [paramsOf_reread, List.forall₂_map_right_iff, List.forall₂_same]
    exact fun word member => isReread_rereadWord (params word member)
  · rw [toText_blockOf, wordsText_sorted_reread all]

/-- The instruction comes first and the axis keeps three places. -/
theorem read_toText_motion
    : ∃ block again,
        Block.read {} ModalTable.linuxCnc.classify "x1.23456g1".toList = .ok block
        ∧ Block.read {} ModalTable.linuxCnc.classify block.toText = .ok again
        ∧ again.instructions = block.instructions := by
  have valid : (Block.read {} ModalTable.linuxCnc.classify "x1.23456g1".toList).isOk = true := by
    decide +kernel
  cases h : Block.read {} ModalTable.linuxCnc.classify "x1.23456g1".toList with
  | error error =>
      rw [h] at valid
      contradiction
  | ok block =>
      obtain ⟨again, read, same, _⟩ := read_toText .standard true _ block h
      exact ⟨block, again, rfl, read, same⟩

end Gcode.LinuxCnc
