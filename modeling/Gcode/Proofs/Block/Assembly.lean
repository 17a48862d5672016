import Gcode.Proofs.Block

/-! Blocks put together from the instructions and the modal parameters of a block that was read.
The words then come in another order, those of instructions before all others. Whether a word is
an instruction is said by its letter alone, so the words of one letter stay in their order, and
the first of them is the same.
-/

namespace Gcode

-----------------------------------------------------------------------------------------
-- Code words before all others
-----------------------------------------------------------------------------------------

namespace ModalTable

variable {table : ModalTable} {words : List Word}

/-- The words of a line in the order of its parts: code words before all others. -/
def arrange (table : ModalTable) (words : List Word) : List Word :=
  words.filter table.isCode ++ words.filter fun word => !table.isCode word

theorem arrange_perm (table : ModalTable) (words : List Word) : (table.arrange words).Perm words :=
  List.filter_append_perm table.isCode words

/-- Words that are chosen by their letters are all or none of the words of a letter. -/
theorem filter_letter_filter {chosen : Word → Bool} {letter : Letter} {all : Bool}
    (same : ∀ word, word.letter = letter → chosen word = all)
    : (words.filter chosen).filter (·.letter == letter)
      = if all then words.filter (·.letter == letter) else [] := by
  have both (word : Word)
      : ((word.letter == letter) && chosen word) = if all then word.letter == letter else false := by
    cases of : word.letter == letter with
    | false => simp
    | true => simp [same word (beq_iff_eq.1 of)]
  simp_rw [List.filter_filter, both]
  cases all <;> simp

/-- The words of a letter keep their order: they are all code words, or none of them is one. -/
theorem filter_letter_arrange (table : ModalTable) (words : List Word) (letter : Letter)
    : (table.arrange words).filter (·.letter == letter) = words.filter (·.letter == letter) := by
  have codes (word : Word) (of : word.letter = letter)
      : table.isCode word = decide (letter.char ∈ table.codeLetters) := by
    rw [isCode, of]
  have others (word : Word) (of : word.letter = letter)
      : (!table.isCode word) = !decide (letter.char ∈ table.codeLetters) := by
    rw [codes word of]
  rw [arrange, List.filter_append, filter_letter_filter codes, filter_letter_filter others]
  cases decide (letter.char ∈ table.codeLetters) <;> simp

/-- The words of the instructions are the code words: instructions of a table take no others. -/
theorem flatMap_words_instructionsOf
    : (table.instructionsOf words).flatMap Instruction.words = words.filter table.isCode := by
  have alone (word : Word) : (⟨word, table.groupOf word, []⟩ : Instruction).words = [word] := rfl
  simp [instructionsOf, List.flatMap_map, alone]

end ModalTable

-----------------------------------------------------------------------------------------
-- Blocks of the same parts
-----------------------------------------------------------------------------------------

namespace Block

variable {settings : Settings} {table : ModalTable} {text : List Char} {block : Block}

/-- Blocks that cannot be told apart by their canonical texts, by counting, or by looking up words;
only words of different letters may come in different orders.
-/
structure Alike (left right : Block) : Prop where
  toText : left.toText = right.toText
  length : left.length = right.length
  isEmpty : left.isEmpty = right.isEmpty
  words : left.words.Perm right.words
  inOrder
    : ∀ letter, left.words.filter (·.letter == letter) = right.words.filter (·.letter == letter)
  /-- The same word, none, or the same error. -/
  wordFor : ∀ c, left.wordFor c = right.wordFor c

/-- Blocks with the same parts and dialect are alike if their words of every letter are the same.
The first word of a letter is the first of its words.
-/
theorem alike_of_words {left right : Block} (instructions : left.instructions = right.instructions)
    (modalParams : left.modalParams = right.modalParams) (dialect : left.dialect = right.dialect)
    (words : left.words.Perm right.words)
    (inOrder
      : ∀ letter, left.words.filter (·.letter == letter) = right.words.filter (·.letter == letter))
    : left.Alike right where
  toText := by rw [Block.toText, Block.toText, instructions, modalParams]
  length := by rw [Block.length, Block.length, instructions, modalParams]
  isEmpty := words.isEmpty_eq
  words := words
  inOrder := inOrder
  wordFor c := by
    have first (letter : Letter) : left.words.find? (·.letter == letter)
        = right.words.find? (·.letter == letter) := by
      rw [← List.head?_filter, ← List.head?_filter, inOrder letter]
    simp only [Block.wordFor, dialect, first]

/-- Instructions and modal parameters make a block exactly where checking the instructions does. -/
theorem ofParts_eq (instructions : List Instruction) (modalParams : List Word) (dialect : Dialect)
    (verify : Bool)
    : Block.ofParts instructions modalParams dialect verify
      = (if verify then Instruction.verify instructions else .ok ()).map fun _ =>
          { words := instructions.flatMap Instruction.words ++ modalParams, instructions,
            modalParams, dialect } := by
  cases verify with
  | false => rfl
  | true =>
      unfold Block.ofParts
      simp only [if_true]
      cases Instruction.verify instructions <;> rfl

/-- The instructions and the modal parameters of a block that was read make a block again, and it
is like the one that was read.
-/
theorem ofParts_of_read (settings : Settings) (table : ModalTable) (text : List Char)
    (block : Block) (h : Block.read settings table.classify text = .ok block)
    : ∃ again, Block.ofParts block.instructions block.modalParams block.dialect settings.verify
          = .ok again
        ∧ again.Alike block := by
  obtain ⟨words, _, agree, rfl⟩ := read_eq_ok_iff.1 h
  have passed : (if settings.verify then Instruction.verify (table.instructionsOf words) else .ok ())
      = .ok () := ModalTable.checked_eq_ok_iff.2 agree
  have parts : (table.instructionsOf words).flatMap Instruction.words
      ++ (words.filter fun word => !table.isCode word) = table.arrange words := by
    rw [ModalTable.flatMap_words_instructionsOf, ModalTable.arrange]
  let again : Block := {
    words := table.arrange words
    instructions := table.instructionsOf words
    modalParams := words.filter fun word => !table.isCode word
    dialect := settings.dialect }
  refine ⟨again, ?_, alike_of_words rfl rfl rfl (table.arrange_perm words)
    (table.filter_letter_arrange words)⟩
  rw [ofParts_eq]
  simp only [ofWords, passed, parts, Except.map, again]

/-- A code after its parameters comes first in the block that is put together. -/
theorem ofParts_of_read_motion
    : ∃ block again, Block.read {} ModalTable.linuxCnc.classify "x1 y2 g1 x3".toList = .ok block
        ∧ Block.ofParts block.instructions block.modalParams block.dialect true = .ok again
        ∧ again.Alike block := by
  have valid : (Block.read {} ModalTable.linuxCnc.classify "x1 y2 g1 x3".toList).isOk := by
    decide +kernel
  obtain ⟨block, h⟩ := exists_of_isOk valid
  obtain ⟨again, made, alike⟩ := ofParts_of_read {} ModalTable.linuxCnc _ block h
  exact ⟨block, again, h, made, alike⟩

end Block
end Gcode
