import Gcode.Proofs.Block

/-! What the precision of positions changes.
Words keep the precision that they were read with, and only look at it when they are written in
the format of positions. So text is read in the same way at any precision.
-/

namespace Gcode

variable {settings : Settings} {text : List Char} {word : Word} {words : List Word}

theorem ValueFormat.render_of_ne_position {format : ValueFormat} (other : format ≠ .position)
    (value : Value) (xyDecimals precision : Precision)
    : format.render value xyDecimals = format.render value precision := by
  cases format with
  | position => contradiction
  | real => cases value <;> rfl
  | code => cases value <;> rfl
  | integer => cases value <;> rfl
  | verbatim => cases value <;> rfl

namespace Word

/-- A word as it is at another precision. -/
def withPrecision (xyDecimals : Precision) (word : Word) : Word :=
  { word with xyDecimals }

theorem toText_withPrecision (xyDecimals : Precision) (other : word.rule.format ≠ .position)
    : (word.withPrecision xyDecimals).toText = word.toText :=
  congrArg (word.letter.char :: ·) (ValueFormat.render_of_ne_position other _ _ _)

end Word

theorem Word.ofMatch_withPrecision (xyDecimals : Precision) (letter : Letter) (rule : Rule)
    (source : List Char)
    : Word.ofMatch { settings with xyDecimals } letter rule source
      = (Word.ofMatch settings letter rule source).map (withPrecision xyDecimals) := by
  unfold Word.ofMatch
  cases rule.read? source <;> rfl

/-- A step as it is at another precision. -/
def Step.withPrecision (xyDecimals : Precision) : Step → Step
  | .word word rest => .word (word.withPrecision xyDecimals) rest
  | .stop => .stop
  | .fail error rest => .fail error rest

theorem Step.take_withPrecision (settings : Settings) (xyDecimals : Precision) (text : List Char)
    : Step.take { settings with xyDecimals } text
      = (Step.take settings text).withPrecision xyDecimals := by
  unfold Step.take
  cases settings.dialect.nextLetter? text with
  | none =>
      dsimp only
      split <;> rfl
  | some next =>
      obtain ⟨letter, rule, rest⟩ := next
      dsimp only
      cases rule.match? rest with
      | none => rfl
      | some found =>
          dsimp only
          rw [Word.ofMatch_withPrecision]
          cases Word.ofMatch settings letter rule found.1 <;> rfl

/-- The same words are read at any precision, by induction on the scan. -/
theorem readWords_withPrecision (settings : Settings) (xyDecimals : Precision) (text : List Char)
    : readWords { settings with xyDecimals } text
      = (readWords settings text).map (List.map (Word.withPrecision xyDecimals)) := by
  fun_induction scanWords settings text with
  | case1 text stop =>
      have step := Step.take_withPrecision settings xyDecimals text
      rw [stop] at step
      rw [readWords_of_stop stop, readWords_of_stop step]
      rfl
  | case2 text error rest fails =>
      have step := Step.take_withPrecision settings xyDecimals text
      rw [fails] at step
      rw [readWords_of_fail fails, readWords_of_fail step]
      rfl
  | case3 text word rest found words error more ih =>
      have step := Step.take_withPrecision settings xyDecimals text
      rw [found] at step
      rw [readWords_of_word found, readWords_of_word step, ih]
      cases readWords settings rest <;> rfl

namespace Instruction

/-- An instruction as it is at another precision. -/
def withPrecision (xyDecimals : Precision) (instruction : Instruction) : Instruction :=
  { instruction with
    word := instruction.word.withPrecision xyDecimals
    params := instruction.params.map (Word.withPrecision xyDecimals) }

section Verify

variable {f : Instruction → Instruction} {earlier instructions : List Instruction}
  {instruction : Instruction}

/-- Instructions that are replaced by ones with equal words, the same groups and the same texts are
in conflict as before.
-/
theorem conflict?_map
    (words : ∀ first second, Word.eq (f first).word (f second).word = Word.eq first.word second.word)
    (groups : ∀ instruction, (f instruction).modalGroup = instruction.modalGroup)
    (texts : ∀ instruction ∈ earlier, (f instruction).toText = instruction.toText)
    (text : (f instruction).toText = instruction.toText)
    : conflict? (earlier.map f) (f instruction) = conflict? earlier instruction := by
  unfold conflict?
  simp only [List.find?_map, Function.comp_def, words, groups]
  cases same : earlier.find? fun first => first.word.eq instruction.word with
  | some first => simp [text, texts first (List.mem_of_find?_eq_some same)]
  | none =>
      simp only [Option.map_none]
      congr 1
      funext group
      cases found : earlier.find? fun first => first.modalGroup == some group with
      | none => rfl
      | some first => simp [text, texts first (List.mem_of_find?_eq_some found)]

theorem verifyAfter_map
    (words : ∀ first second, Word.eq (f first).word (f second).word = Word.eq first.word second.word)
    (groups : ∀ instruction, (f instruction).modalGroup = instruction.modalGroup)
    (before : ∀ instruction ∈ earlier, (f instruction).toText = instruction.toText)
    (texts : ∀ instruction ∈ instructions, (f instruction).toText = instruction.toText)
    : verifyAfter (earlier.map f) (instructions.map f) = verifyAfter earlier instructions := by
  induction instructions generalizing earlier with
  | nil => rfl
  | cons instruction rest ih =>
      obtain ⟨text, texts⟩ := List.forall_mem_cons.1 texts
      rw [List.map_cons, verifyAfter, verifyAfter, conflict?_map words groups before text]
      cases conflict? earlier instruction with
      | some error => rfl
      | none => exact ih (List.forall_mem_cons.2 ⟨text, before⟩) texts

end Verify

end Instruction

section Verify

variable {table : ModalTable}

theorem ModalTable.instructionsOf_withPrecision (table : ModalTable) (xyDecimals : Precision)
    (words : List Word)
    : table.instructionsOf (words.map (Word.withPrecision xyDecimals))
      = (table.instructionsOf words).map (Instruction.withPrecision xyDecimals) := by
  rw [instructionsOf, instructionsOf, List.filter_map, List.map_map, List.map_map]
  rfl

/-- Code words that are not written in the format of positions are checked, and reported, in the
same way at any precision.
-/
theorem ModalTable.checked_withPrecision (verify : Bool) (xyDecimals : Precision)
    (codes : ∀ word ∈ words, table.isCode word → word.rule.format ≠ .position)
    : table.checked verify (words.map (Word.withPrecision xyDecimals))
      = table.checked verify words := by
  unfold checked
  rw [instructionsOf_withPrecision, Instruction.verify, Instruction.verify]
  have texts : ∀ instruction ∈ table.instructionsOf words,
      (instruction.withPrecision xyDecimals).toText = instruction.toText := by
    intro instruction member
    obtain ⟨word, isCode, rfl⟩ := List.mem_map.1 member
    obtain ⟨inside, isCode⟩ := List.mem_filter.1 isCode
    have text := Word.toText_withPrecision xyDecimals (codes word inside isCode)
    simp only [Instruction.toText, Instruction.words, Instruction.withPrecision, List.map_nil,
      List.map_cons, text]
  have verified := Instruction.verifyAfter_map (f := Instruction.withPrecision xyDecimals)
    (fun _ _ => rfl) (fun _ => rfl) (List.forall_mem_nil _) texts
  rw [List.map_nil] at verified
  rw [verified]

/-- A block as it is at another precision. -/
def Block.withPrecision (xyDecimals : Precision) (block : Block) : Block :=
  { block with
    words := block.words.map (Word.withPrecision xyDecimals)
    instructions := block.instructions.map (Instruction.withPrecision xyDecimals)
    modalParams := block.modalParams.map (Word.withPrecision xyDecimals) }

theorem Block.ofWords_withPrecision (settings : Settings) (table : ModalTable)
    (xyDecimals : Precision) (text : List Char) (words : List Word)
    : ofWords { settings with xyDecimals } table text (words.map (Word.withPrecision xyDecimals))
      = (ofWords settings table text words).withPrecision xyDecimals := by
  unfold ofWords withPrecision
  rw [ModalTable.instructionsOf_withPrecision, List.filter_map]
  rfl

/-- Blocks are read in the same way at any precision, unless they have code words in the format of
positions.
-/
theorem Block.read_withPrecision (xyDecimals : Precision)
    (codes
      : ∀ words, readWords settings (Text.normalize text) = .ok words
          → ∀ word ∈ words, table.isCode word → word.rule.format ≠ .position)
    : Block.read { settings with xyDecimals } table.classify text
      = (Block.read settings table.classify text).map (withPrecision xyDecimals) := by
  have scanned := readWords_withPrecision settings xyDecimals (Text.normalize text)
  cases h : readWords settings (Text.normalize text) with
  | error error =>
      rw [h] at scanned
      rw [read_of_error h, read_of_error scanned, Except.map]
  | ok words =>
      rw [h] at scanned
      rw [read_of_ok h, read_of_ok scanned, ModalTable.checked_withPrecision _ _ (codes words h),
        ofWords_withPrecision]
      cases table.checked settings.verify words <;> rfl

end Verify

end Gcode
