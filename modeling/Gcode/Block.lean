import Gcode.Instruction.Conflict
import Gcode.Instruction.ModalTable

/-! Blocks: program lines read into words, and the words sorted into instructions. -/

namespace Gcode

structure Block where
  /-- The text as it was given, if the block was read from text. -/
  rawText : Option (List Char) := none
  /-- The text with its blanks in order, if the block was read from text. -/
  source : Option (List Char) := none
  words : List Word := []
  instructions : List Instruction := []
  modalParams : List Word := []
  dialect : Dialect

namespace Block

/-- Reads comment-free text. There is no block unless all of it can be read and sorted, and the
instructions agree where the settings ask for that.
-/
def read (settings : Settings) (classifier : Classifier) (text : List Char)
    : Except Error Block := do
  let source := Text.normalize text
  let words ← readWords settings source
  let { instructions, modalParams } ← classifier words settings.dialect
  if settings.verify then Instruction.verify instructions
  return {
    rawText := some text, source := some source, words, instructions, modalParams,
    dialect := settings.dialect }

/-- A block without words. -/
def empty (dialect : Dialect) : Block :=
  { dialect }

/-- A block with given instructions and modal parameters, in this order. -/
def ofParts (instructions : List Instruction) (modalParams : List Word) (dialect : Dialect)
    (verify : Bool) : Except Error Block := do
  if verify then Instruction.verify instructions
  return {
    words := instructions.flatMap Instruction.words ++ modalParams, instructions, modalParams,
    dialect }

/-- Instructions and then modal parameters, each in canonical form. -/
def toText (block : Block) : List Char :=
  [' '].intercalate
    (block.instructions.map Instruction.toText ++ block.modalParams.map Word.toText)

/-- The source with its blanks in order, or the canonical text where there is none. -/
def text (block : Block) : List Char :=
  match block.source with
  | some (c :: rest) => c :: rest
  | _ => block.toText

/-- The first word with a letter, which the dialect must define. -/
def wordFor (block : Block) (letter : Char) : Except Error (Option Word) := do
  let (letter, _) ← block.dialect.requireRule letter
  return block.words.find? (·.letter == letter)

/-- The number of instructions, and one more when there are modal parameters. -/
def length (block : Block) : Nat :=
  block.instructions.length + if block.modalParams.isEmpty then 0 else 1

def isEmpty (block : Block) : Bool :=
  block.words.isEmpty

end Block
end Gcode
