import Gcode.Word.Scan

/-! Instructions: code words with the words they take as parameters. -/

namespace Gcode

structure Instruction where
  word : Word
  /-- The group of instructions of which a block may have only one. -/
  modalGroup : Option String
  params : List Word := []

namespace Instruction

/-- The words of an instruction in order. -/
def words (instruction : Instruction) : List Word :=
  instruction.word :: instruction.params

def toText (instruction : Instruction) : List Char :=
  [' '].intercalate (instruction.words.map Word.toText)

end Instruction

/-- The words of a line, sorted into instructions and parameters of the modes in force. -/
structure Classified where
  instructions : List Instruction := []
  modalParams : List Word := []

/-- A way to sort the words of a line. It keeps instructions and modal parameters in the order of
their words and accounts for every word.
-/
abbrev Classifier := List Word → Dialect → Except Error Classified

end Gcode
