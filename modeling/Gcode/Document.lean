import Gcode.Block
import Gcode.Comment
import Gcode.Text.Lines

/-! Documents: every line is read by itself, and a line that cannot be read is reported. -/

namespace Gcode

/-- Reads a line that may have comments. -/
def readLine (settings : Settings) (classifier : Classifier) (line : List Char)
    : Except Error (Block × List (List Char)) := do
  let { code, comments } := CommentedLine.ofLine line
  return (← Block.read settings classifier code, comments)

/-- A line that was read, by its number from one on. -/
structure LineBlock where
  line : Nat
  block : Block
  comments : List (List Char)

/-- The canonical form of a line that was read: its block, unless it is empty, and its comments
after it.
-/
def LineBlock.toText (found : LineBlock) : List Char :=
  [' '].intercalate
    ((if found.block.isEmpty then [] else [found.block.toText]) ++ found.comments)

/-- A line that could not be read. -/
structure Diagnostic where
  line : Nat
  error : Error

structure Document where
  blocks : List LineBlock := []
  diagnostics : List Diagnostic := []

namespace Document

def isValid (document : Document) : Bool :=
  document.diagnostics.isEmpty

/-- Reads lines that are numbered from a given number on. -/
def ofLines (settings : Settings) (classifier : Classifier) (number : Nat)
    : List (List Char) → Document
  | [] => {}
  | line :: lines =>
      let after := ofLines settings classifier (number + 1) lines
      match readLine settings classifier line with
      | .ok (block, comments) => { after with blocks := ⟨number, block, comments⟩ :: after.blocks }
      | .error error => { after with diagnostics := ⟨number, error⟩ :: after.diagnostics }

def read (settings : Settings) (classifier : Classifier) (content : List Char) : Document :=
  ofLines settings classifier 1 (Text.lines content)

/-- The canonical form of a line: its block, unless it is empty, and its comments after it. A
line that cannot be read stays as it is.
-/
def formatLine (settings : Settings) (line : List Char) : List Char :=
  match readLine settings ModalTable.linuxCnc.classify line with
  | .ok (block, comments) =>
      [' '].intercalate ((if block.isEmpty then [] else [block.toText]) ++ comments)
  | .error _ => line

/-- Writes lines that are numbered from a given number on. A line whose number the next block has
is written as that block, and every other line as it is.
-/
def weave (number : Nat) : List LineBlock → List (List Char) → List (List Char)
  | _, [] => []
  | [], line :: lines => line :: weave (number + 1) [] lines
  | found :: blocks, line :: lines =>
      if found.line = number then found.toText :: weave (number + 1) blocks lines
      else line :: weave (number + 1) (found :: blocks) lines

/-- The canonical form of a document, with a report of the lines that stay as they are. -/
def format (settings : Settings) (content : List Char) : List Char × List Diagnostic :=
  let { blocks, diagnostics } := read settings ModalTable.linuxCnc.classify content
  (Text.unlines (weave 1 blocks (Text.lines content)), diagnostics)

end Document
end Gcode
