import Gcode.Block
import Gcode.Proofs.Instruction.Conflict
import Gcode.Proofs.Word.Lossless

/-! The block of a text: when there is one, what is in it, and what is reported otherwise.
The words are sorted by the letters that a table has for codes; a block is only refused for its
words when they are checked, and then for the first conflict among the instructions.
-/

namespace Gcode

open Text

-----------------------------------------------------------------------------------------
-- Words of code letters
-----------------------------------------------------------------------------------------

namespace ModalTable

variable {table : ModalTable} {words : List Word}

/-- The instructions among words, with their groups. -/
def instructionsOf (table : ModalTable) (words : List Word) : List Instruction :=
  (words.filter table.isCode).map fun word => ⟨word, table.groupOf word, []⟩

/-- No two code words are equal, and no two are in one group. -/
def Compatible (table : ModalTable) (words : List Word) : Prop :=
  (words.filter table.isCode).Pairwise fun first second =>
    Word.eq first second = false
    ∧ ∀ group, table.groupOf first = some group → table.groupOf second ≠ some group

theorem pairwise_instructionsOf
    : (table.instructionsOf words).Pairwise Instruction.Agree ↔ table.Compatible words := by
  rw [instructionsOf, List.pairwise_map]
  constructor
  · exact fun h => h.imp fun agree => ⟨agree.words, agree.groups⟩
  · exact fun h => h.imp fun both => ⟨both.1, both.2⟩

theorem map_word_instructionsOf
    : (table.instructionsOf words).map Instruction.word = words.filter table.isCode := by
  simp [instructionsOf, Function.comp_def]

/-- The words of a block are checked for conflicts where that is asked for. -/
def checked (table : ModalTable) (verify : Bool) (words : List Word) : Except Error Unit :=
  if verify then Instruction.verify (table.instructionsOf words) else .ok ()

theorem checked_eq_ok_iff {verify : Bool}
    : table.checked verify words = .ok () ↔ (verify → table.Compatible words) := by
  cases verify with
  | false => simp [checked]
  | true => simpa [checked] using Instruction.verify_eq_ok_iff.trans pairwise_instructionsOf

theorem checked_eq_error_iff {verify : Bool} {error : Error}
    : table.checked verify words = .error error
      ↔ verify ∧ Instruction.FirstConflict (table.instructionsOf words) error := by
  cases verify with
  | false => simp [checked]
  | true => simpa [checked] using Instruction.verify_eq_error_iff

end ModalTable

/-- The name of the kind of an error that a conflict is reported as. -/
theorem Instruction.FirstConflict.kind {instructions : List Instruction} {error : Error}
    (h : FirstConflict instructions error)
    : error.kind = "same-code-in-block" ∨ error.kind = "same-modal-group-in-block" := by
  obtain ⟨_, _, _, _, _, conflict⟩ := h
  cases conflict with
  | sameCode => exact .inl rfl
  | sameGroup => exact .inr rfl

-----------------------------------------------------------------------------------------
-- Reading a block
-----------------------------------------------------------------------------------------

/-- The check plays no part in how words are read, by induction on the scan. -/
theorem readWords_verify (settings : Settings) (verify : Bool) (text : List Char)
    : readWords { settings with verify } text = readWords settings text := by
  fun_induction scanWords settings text with
  | case1 text stop => rw [readWords_of_stop stop, readWords_of_stop (by exact stop)]
  | case2 text error rest fails =>
      rw [readWords_of_fail fails, readWords_of_fail (by exact fails)]
  | case3 text word rest found words error more ih =>
      rw [readWords_of_word found, readWords_of_word (by exact found), ih]

namespace Block

variable {settings : Settings} {table : ModalTable} {text : List Char} {words : List Word}
  {block : Block} {error : Error}

/-- The block of the words of a text. -/
def ofWords (settings : Settings) (table : ModalTable) (text : List Char) (words : List Word)
    : Block where
  rawText := some text
  source := some (normalize text)
  words := words
  instructions := table.instructionsOf words
  modalParams := words.filter fun word => !table.isCode word
  dialect := settings.dialect

theorem read_of_error (h : readWords settings (normalize text) = .error error)
    : Block.read settings table.classify text = .error error := by
  unfold Block.read
  simp only [h]
  rfl

theorem read_of_ok (h : readWords settings (normalize text) = .ok words)
    : Block.read settings table.classify text
      = (table.checked settings.verify words).map fun _ => ofWords settings table text words := by
  unfold Block.read ModalTable.checked
  simp only [h]
  cases settings.verify with
  | false => rfl
  | true =>
      change (Instruction.verify (table.instructionsOf words) >>= fun _ =>
        pure (ofWords settings table text words)) = _
      rw [if_pos rfl]
      cases Instruction.verify (table.instructionsOf words) <;> rfl

/-- A block depends on the text only through its text with the blanks in order, but for the raw
text that it keeps.
-/
theorem read_of_normalize_eq {other : List Char}
    (same : normalize other = normalize text)
    : Block.read settings table.classify other
      = (Block.read settings table.classify text).map fun block =>
          { block with rawText := some other } := by
  cases h : readWords settings (normalize text) with
  | error error => rw [read_of_error h, read_of_error (same ▸ h), Except.map]
  | ok words =>
      have whole : ofWords settings table other words
          = { ofWords settings table text words with rawText := some other } := by
        rw [ofWords, same, ofWords]
      rw [read_of_ok h, read_of_ok (same ▸ h), whole]
      cases table.checked settings.verify words <;> rfl

/-- A block is read from words that can be read and, where that is asked for, agree. -/
theorem read_eq_ok_iff
    : Block.read settings table.classify text = .ok block
      ↔ ∃ words, readWords settings (normalize text) = .ok words
          ∧ (settings.verify → table.Compatible words)
          ∧ block = ofWords settings table text words := by
  cases h : readWords settings (normalize text) with
  | error error =>
      rw [read_of_error h]
      simp
  | ok words =>
      rw [read_of_ok h]
      simp only [← ModalTable.checked_eq_ok_iff, Except.ok.injEq, exists_eq_left']
      cases table.checked settings.verify words with
      | error error => simp [Except.map]
      | ok _ => simp [Except.map, eq_comm]

/-- There is no block of a text whose words cannot be read, or are in conflict where they are
checked.
-/
theorem read_eq_error_iff
    : Block.read settings table.classify text = .error error
      ↔ readWords settings (normalize text) = .error error
        ∨ ∃ words, readWords settings (normalize text) = .ok words ∧ settings.verify
            ∧ Instruction.FirstConflict (table.instructionsOf words) error := by
  cases h : readWords settings (normalize text) with
  | error other =>
      rw [read_of_error h]
      simp
  | ok words =>
      rw [read_of_ok h]
      simp only [← ModalTable.checked_eq_error_iff, Except.ok.injEq, exists_eq_left', reduceCtorEq,
        false_or]
      cases table.checked settings.verify words <;> simp [Except.map]

/-- There are no words in a text exactly when it is blank. -/
theorem words_eq_nil_iff (h : readWords settings (normalize text) = .ok words)
    : words = [] ↔ ∀ c ∈ text, isBlank c := by
  rw [← normalize_eq_nil_iff]
  constructor
  · rintro rfl
    by_contra some
    have blanks := blank_of_readWords_nil h
    exact (spaced_normalize text).trimStart_ne_nil some (List.dropWhile_eq_nil_iff.2 blanks)
  · intro none
    have stop : Step.take settings [] = .stop := rfl
    rw [none, readWords_of_stop stop] at h
    exact (Except.ok.inj h).symm

/-- What the block of a text is: it has all words of the text, those of code letters as
instructions without parameters and the others as modal parameters, each in the order of the text.
-/
structure IsOf (settings : Settings) (table : ModalTable) (text : List Char) (block : Block)
    : Prop where
  words : readWords settings (normalize text) = .ok block.words
  codes
    : block.instructions.map Instruction.word
      = block.words.filter fun word => word.letter.char ∈ table.codeLetters
  params : block.modalParams = block.words.filter fun word => word.letter.char ∉ table.codeLetters
  groups
    : ∀ instruction ∈ block.instructions,
        instruction.modalGroup = table.groupOf instruction.word ∧ instruction.params = []
  /-- Every word of the block is an instruction or a modal parameter, as often as it is there. -/
  parts : (block.instructions.map Instruction.word ++ block.modalParams).Perm block.words
  apart : (block.instructions.map Instruction.word).Disjoint block.modalParams
  length
    : block.length = block.instructions.length + if block.modalParams = [] then 0 else 1
  isEmpty : block.isEmpty ↔ ∀ c ∈ text, isBlank c
  texts : block.rawText = some text ∧ block.source = some (normalize text)
  dialect : block.dialect = settings.dialect

theorem isOf_ofWords (h : readWords settings (normalize text) = .ok words)
    : (ofWords settings table text words).IsOf settings table text where
  words := h
  codes := ModalTable.map_word_instructionsOf
  params := by simp [ofWords, ModalTable.isCode]
  groups instruction member := by
    obtain ⟨word, _, rfl⟩ := List.mem_map.1 member
    exact ⟨rfl, rfl⟩
  parts := by
    change ((table.instructionsOf words).map Instruction.word
      ++ words.filter fun word => !table.isCode word).Perm words
    rw [ModalTable.map_word_instructionsOf]
    exact List.filter_append_perm table.isCode words
  apart := by
    change ((table.instructionsOf words).map Instruction.word).Disjoint
      (words.filter fun word => !table.isCode word)
    rw [ModalTable.map_word_instructionsOf]
    intro word code other
    simp [(List.mem_filter.1 code).2] at other
  length := by simp [length]
  isEmpty := List.isEmpty_iff.trans (words_eq_nil_iff h)
  texts := ⟨rfl, rfl⟩
  dialect := rfl

/-- A text has a block exactly when its words can be read and, where they are checked, its code
words agree; the block then holds all words of the text and nothing else. Otherwise the error is
that of the words, or of the first conflict among the instructions. Without the check the same
blocks are read, and others only of texts that the check refuses for a conflict.
-/
theorem read_all_or_nothing (settings : Settings) (table : ModalTable) (text : List Char)
    : ((∃ block, Block.read settings table.classify text = .ok block)
        ↔ ∃ words, readWords settings (normalize text) = .ok words
            ∧ (settings.verify → table.Compatible words))
      ∧ (∀ block, Block.read settings table.classify text = .ok block
          → block.IsOf settings table text)
      ∧ (∀ error, Block.read settings table.classify text = .error error
          ↔ readWords settings (normalize text) = .error error
            ∨ ∃ words, readWords settings (normalize text) = .ok words ∧ settings.verify
                ∧ Instruction.FirstConflict (table.instructionsOf words) error)
      ∧ (∀ block, Block.read { settings with verify := true } table.classify text = .ok block
          → Block.read { settings with verify := false } table.classify text = .ok block)
      ∧ ∀ block, Block.read { settings with verify := false } table.classify text = .ok block
          → Block.read { settings with verify := true } table.classify text = .ok block
            ∨ ∃ error, Block.read { settings with verify := true } table.classify text = .error error
                ∧ (error.kind = "same-code-in-block" ∨ error.kind = "same-modal-group-in-block") := by
  refine ⟨?_, ?_, fun error => read_eq_error_iff, ?_, ?_⟩
  · simp only [read_eq_ok_iff]
    constructor
    · rintro ⟨_, words, read, agree, rfl⟩
      exact ⟨words, read, agree⟩
    · rintro ⟨words, read, agree⟩
      exact ⟨_, words, read, agree, rfl⟩
  · intro block h
    obtain ⟨words, read, _, rfl⟩ := read_eq_ok_iff.1 h
    exact isOf_ofWords read
  · intro block h
    obtain ⟨words, read, _, rfl⟩ := read_eq_ok_iff.1 h
    rw [readWords_verify] at read
    refine read_eq_ok_iff.2 ⟨words, ?_, by simp, rfl⟩
    rw [readWords_verify, read]
  · intro block h
    obtain ⟨words, read, _, rfl⟩ := read_eq_ok_iff.1 h
    cases checked : Block.read { settings with verify := true } table.classify text with
    | ok other =>
        left
        obtain ⟨words', read', _, rfl⟩ := read_eq_ok_iff.1 checked
        rw [readWords_verify] at read read'
        obtain rfl := Except.ok.inj (read.symm.trans read')
        rfl
    | error error =>
        right
        refine ⟨error, rfl, ?_⟩
        rcases read_eq_error_iff.1 checked with failed | ⟨_, _, _, conflict⟩
        · rw [readWords_verify] at read failed
          rw [read] at failed
          cases failed
        · exact conflict.kind

/-- A code and an axis position give a block with both of them. -/
theorem read_motion
    : ∃ block, Block.read {} ModalTable.linuxCnc.classify "x1 g1".toList = .ok block
        ∧ block.IsOf {} ModalTable.linuxCnc "x1 g1".toList := by
  have valid : (Block.read {} ModalTable.linuxCnc.classify "x1 g1".toList).isOk = true := by
    decide +kernel
  cases h : Block.read {} ModalTable.linuxCnc.classify "x1 g1".toList with
  | error error =>
      rw [h] at valid
      contradiction
  | ok block =>
      obtain ⟨_, found, _⟩ := read_all_or_nothing {} ModalTable.linuxCnc "x1 g1".toList
      exact ⟨block, rfl, found block h⟩

end Block

end Gcode
