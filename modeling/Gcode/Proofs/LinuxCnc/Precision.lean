import Gcode.Proofs.LinuxCnc.Document
import Gcode.Proofs.Word.Construction
import Gcode.Proofs.Word.Precision

/-! What the precision of positions changes in a document of the built-in dialect.
The same lines are read, with equal words, and the same lines are reported. What is written has
the same text at any precision, but for the values of X and Y.
-/

namespace Gcode

open Text
open CommentedLine (ofLine)

/-- Instructions with equal words and the same group. -/
structure Instruction.Same (left right : Instruction) : Prop where
  word : Word.eq left.word right.word
  modalGroup : left.modalGroup = right.modalGroup
  params : List.Forall₂ (fun left right => Word.eq left right) left.params right.params

/-- Lines that were read with equal words, which are sorted in the same way, and the same comments.
-/
structure LineBlock.Same (left right : LineBlock) : Prop where
  line : left.line = right.line
  comments : left.comments = right.comments
  words
    : List.Forall₂ (fun left right => Word.eq left right) left.block.words right.block.words
  instructions : List.Forall₂ Instruction.Same left.block.instructions right.block.instructions
  modalParams
    : List.Forall₂ (fun left right => Word.eq left right) left.block.modalParams
        right.block.modalParams

/-- A line that was read, as it is at another precision. -/
def LineBlock.withPrecision (xyDecimals : Precision) (found : LineBlock) : LineBlock :=
  { found with block := found.block.withPrecision xyDecimals }

/-- A document as it is at another precision. What is reported has no precision. -/
def Document.withPrecision (xyDecimals : Precision) (document : Document) : Document :=
  { document with blocks := document.blocks.map (LineBlock.withPrecision xyDecimals) }

namespace LinuxCnc

-----------------------------------------------------------------------------------------
-- Reading at another precision
-----------------------------------------------------------------------------------------

section Read

variable {xyDecimals : Precision} {verify : Bool} {word : Word} {text line : List Char}

theorem isPosition_iff (letter : Letter)
    : (ValueClass.ofLetter letter).format = .position
      ↔ letter.char = 'X' ∨ letter.char = 'Y' := by
  constructor
  · intro isPosition
    unfold ValueClass.ofLetter at isPosition
    split at isPosition <;> first | contradiction | exact .inl ‹_› | exact .inr ‹_›
  · rintro (same | same) <;> rw [ValueClass.ofLetter, same] <;> rfl

/-- Code words are not written in the format of positions. -/
theorem WellRead.format_ne_position (h : WellRead xyDecimals word)
    (isCode : ModalTable.linuxCnc.isCode word) : word.rule.format ≠ .position := by
  rw [h.format_eq, class_of_isCode isCode]
  decide

theorem readBlock_withPrecision (xyDecimals precision : Precision) (verify : Bool)
    (text : List Char)
    : Block.read { xyDecimals := precision, verify } ModalTable.linuxCnc.classify text
      = (Block.read { xyDecimals, verify } ModalTable.linuxCnc.classify text).map
          (Block.withPrecision precision) := by
  refine @Block.read_withPrecision { xyDecimals, verify } text ModalTable.linuxCnc precision ?_
  intro words read word member isCode
  obtain ⟨all, _⟩ := wellRead_of_readWords (spaced_normalize text) read
  exact (all word member).format_ne_position isCode

theorem readLine_withPrecision (xyDecimals precision : Precision) (verify : Bool)
    (line : List Char)
    : readLine { xyDecimals := precision, verify } ModalTable.linuxCnc.classify line
      = (readLine { xyDecimals, verify } ModalTable.linuxCnc.classify line).map
          fun (block, comments) => (block.withPrecision precision, comments) := by
  rw [readLine_eq, readLine_eq, readBlock_withPrecision xyDecimals precision]
  cases Block.read { xyDecimals, verify } ModalTable.linuxCnc.classify (ofLine line).code <;> rfl

/-- A document is read in the same way at any precision, by induction on its lines. -/
theorem ofLines_withPrecision (xyDecimals precision : Precision) (verify : Bool) (number : Nat)
    (lines : List (List Char))
    : Document.ofLines { xyDecimals := precision, verify } ModalTable.linuxCnc.classify number lines
      = (Document.ofLines { xyDecimals, verify } ModalTable.linuxCnc.classify number
          lines).withPrecision precision := by
  induction lines generalizing number with
  | nil => rfl
  | cons line lines ih =>
      have same := readLine_withPrecision xyDecimals precision verify line
      cases h : readLine { xyDecimals, verify } ModalTable.linuxCnc.classify line with
      | error error =>
          rw [h] at same
          rw [Document.ofLines_of_error h, Document.ofLines_of_error same, ih]
          rfl
      | ok found =>
          rw [h] at same
          rw [Document.ofLines_of_ok h, Document.ofLines_of_ok same, ih]
          rfl

end Read

-----------------------------------------------------------------------------------------
-- Writing at another precision
-----------------------------------------------------------------------------------------

/-- A part of a written line. -/
inductive Fragment where
  /-- Text that is the same at any precision. -/
  | text (text : List Char)
  /-- A word of X or Y, whose value is written at a precision. -/
  | axis (letter : Letter) (isAxis : letter.char = 'X' ∨ letter.char = 'Y') (value : Value)

namespace Fragment

def write (xyDecimals : Precision) : Fragment → List Char
  | text t => t
  | axis letter _ value => letter.char :: ValueFormat.position.render value xyDecimals

@[simp] theorem write_text (xyDecimals : Precision) (t : List Char)
    : (text t).write xyDecimals = t :=
  rfl

def ofWord (word : Word) : Fragment :=
  if isAxis : word.letter.char = 'X' ∨ word.letter.char = 'Y' then
    axis word.letter isAxis word.value
  else text word.toText

end Fragment

/-- What is written for a line, but for the precision: the words of its block in canonical order
and its comments, or the line itself where it cannot be read.
-/
def template (settings : Settings) (line : List Char) : List Fragment :=
  match readLine settings ModalTable.linuxCnc.classify line with
  | .ok (block, comments) =>
      [.text [' ']].intercalate
        ((block.instructions.map Instruction.word ++ block.modalParams).map ([.ofWord ·])
          ++ comments.map ([.text ·]))
  | .error _ => [.text line]

section Write

variable {xyDecimals : Precision} {verify : Bool} {word : Word} {words : List Word}

/-- A word of the built-in dialect is written at a precision as its fragment is. -/
theorem WellRead.write_ofWord (h : WellRead xyDecimals word) (precision : Precision)
    : (Fragment.ofWord word).write precision = (word.withPrecision precision).toText := by
  unfold Fragment.ofWord
  split
  · rename_i isAxis
    have format := h.format_eq.trans ((isPosition_iff word.letter).2 isAxis)
    rw [Fragment.write, Word.toText, Word.valueText, Word.withPrecision, format]
  · rename_i other
    have format : word.rule.format ≠ .position :=
      h.format_eq ▸ mt (isPosition_iff word.letter).1 other
    rw [Fragment.write, Word.toText_withPrecision precision format]

theorem flatMap_write_intercalate (precision : Precision) (parts : List (List Fragment))
    : ([Fragment.text [' ']].intercalate parts).flatMap (Fragment.write precision)
      = [' '].intercalate (parts.map (List.flatMap (Fragment.write precision))) := by
  induction parts with
  | nil => rfl
  | cons part parts ih =>
      cases parts with
      | nil => simp [List.intercalate]
      | cons next parts =>
          simp only [List.intercalate, List.map_cons, List.intersperse_cons_cons, List.flatten_cons,
            List.flatMap_append] at ih ⊢
          rw [ih]
          rfl

theorem words_blockOf (text : List Char) (words : List Word)
    : (blockOf text words).instructions.map Instruction.word ++ (blockOf text words).modalParams
      = sorted words := by
  simp [blockOf, instructionsOf, sorted, Function.comp_def]

theorem toText_withPrecision_blockOf (precision : Precision) (text : List Char) (words : List Word)
    : ((blockOf text words).withPrecision precision).toText
      = [' '].intercalate ((sorted words).map fun word => (word.withPrecision precision).toText) := by
  simp [Block.toText, Block.withPrecision, blockOf, instructionsOf, sorted, Instruction.toText,
    Instruction.words, Instruction.withPrecision, Function.comp_def, List.intercalate]

/-- A line is written at any precision from one template. -/
theorem write_template (xyDecimals precision : Precision) (verify : Bool) (line : List Char)
    : (template { xyDecimals, verify } line).flatMap (Fragment.write precision)
      = Document.formatLine { xyDecimals := precision, verify } line := by
  have same := readLine_withPrecision xyDecimals precision verify line
  cases h : readLine { xyDecimals, verify } ModalTable.linuxCnc.classify line with
  | error error =>
      rw [h] at same
      rw [formatLine_of_error same, template, h]
      simp
  | ok found =>
      obtain ⟨block, comments⟩ := found
      rw [h] at same
      obtain ⟨read, rfl⟩ := readLine_eq_ok_iff.1 h
      obtain ⟨words, scanned, _, rfl⟩ := read_eq_ok_iff.1 read
      obtain ⟨all, _⟩ := wellRead_of_readWords (spaced_normalize _) scanned
      have texts : (sorted words).map (fun word => (Fragment.ofWord word).write precision)
          = (sorted words).map fun word => (word.withPrecision precision).toText := by
        refine List.map_congr_left fun word member => ?_
        exact (all word (mem_sorted.1 member)).write_ofWord precision
      have written : (template { xyDecimals, verify } line).flatMap (Fragment.write precision)
          = [' '].intercalate
              ((sorted words).map (fun word => (word.withPrecision precision).toText)
                ++ (ofLine line).comments) := by
        rw [template, h]
        dsimp only
        rw [words_blockOf, flatMap_write_intercalate, List.map_append, List.map_map, List.map_map]
        simp [Function.comp_def, texts]
      have empty : ((blockOf (ofLine line).code words).withPrecision precision).isEmpty
          ↔ (sorted words).map (fun word => (word.withPrecision precision).toText) = [] := by
        simp [Block.isEmpty, Block.withPrecision, blockOf, sorted_eq_nil]
      rw [formatLine_of_ok same, written, toText_withPrecision_blockOf]
      simp only [empty]
      split
      · rename_i none
        rw [none]
      · rename_i some
        rw [List.singleton_append, intercalate_intercalate some]

end Write

/-- The words of a line that was read are numbers and texts, so they are equal at all precisions. -/
theorem same_withPrecision {settings : Settings} {line : List Char} {block : Block}
    {comments : List (List Char)} (precision : Precision) (number : Nat)
    (read : readLine settings ModalTable.linuxCnc.classify line = .ok (block, comments))
    : LineBlock.Same ⟨number, block.withPrecision precision, comments⟩ ⟨number, block, comments⟩ := by
  obtain ⟨readBlock, _⟩ := readLine_eq_ok_iff.1 read
  obtain ⟨words, scanned, _, rfl⟩ := Block.read_eq_ok_iff.1 readBlock
  have equal (word : Word) (member : word ∈ words) : Word.eq (word.withPrecision precision) word := by
    have found : word ∈ (scanWords settings (normalize (ofLine line).code)).1 := by
      rw [scanWords_of_readWords scanned]
      exact member
    exact (eq_self_of_mem_scanWords found : Word.eq word word)
  have all (words' : List Word) (inside : ∀ word ∈ words', word ∈ words)
      : List.Forall₂ (fun left right => Word.eq left right)
          (words'.map (Word.withPrecision precision)) words' := by
    rw [List.forall₂_map_left_iff, List.forall₂_same]
    exact fun word member => equal word (inside word member)
  refine ⟨rfl, rfl, all words fun _ => id, ?_, all _ fun _ member => (List.mem_filter.1 member).1⟩
  change List.Forall₂ Instruction.Same
    ((ModalTable.linuxCnc.instructionsOf words).map (Instruction.withPrecision precision))
    (ModalTable.linuxCnc.instructionsOf words)
  rw [List.forall₂_map_left_iff, List.forall₂_same]
  intro instruction member
  obtain ⟨word, isCode, rfl⟩ := List.mem_map.1 member
  exact ⟨equal word (List.mem_filter.1 isCode).1, rfl, .nil⟩

/-- The precision of positions only changes how X and Y are written. At two precisions the same
lines of a document are read, with equal words that are sorted in the same way and the same
comments, and the same lines are reported with the same errors. Every line is written at any
precision from one template, in which only the values of X and Y depend on the precision.
-/
theorem format_at_precisions (verify : Bool) (content : List Char)
    (xyDecimals precision : Precision)
    : List.Forall₂ LineBlock.Same
        (Document.read { xyDecimals := precision, verify } ModalTable.linuxCnc.classify
          content).blocks
        (Document.read { xyDecimals, verify } ModalTable.linuxCnc.classify content).blocks
      ∧ (Document.read { xyDecimals := precision, verify } ModalTable.linuxCnc.classify
            content).diagnostics
        = (Document.read { xyDecimals, verify } ModalTable.linuxCnc.classify content).diagnostics
      ∧ ∀ places : Precision,
          Document.format { xyDecimals := places, verify } content
            = (unlines ((Text.lines content).map fun line =>
                (template { xyDecimals, verify } line).flatMap (Fragment.write places)),
              (Document.read { xyDecimals, verify } ModalTable.linuxCnc.classify
                content).diagnostics) := by
  have read (precision : Precision) :=
    ofLines_withPrecision xyDecimals precision verify 1 (Text.lines content)
  refine ⟨?_, ?_, fun places => ?_⟩
  · have reports := Document.reports_ofLines { xyDecimals, verify } ModalTable.linuxCnc.classify 1
      (Text.lines content)
    rw [Document.read, Document.read, read, Document.withPrecision, List.forall₂_map_left_iff,
      List.forall₂_same]
    intro found member
    obtain ⟨_, line, _, _, outcome⟩ := reports.blocks found member
    exact same_withPrecision precision found.line outcome
  · rw [Document.read, Document.read, read]
    rfl
  · rw [Document.format_eq, Document.read, read places]
    simp only [write_template]
    rfl

end LinuxCnc
end Gcode
