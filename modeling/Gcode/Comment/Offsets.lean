import Gcode.Comment
import Gcode.Text.Slice

/-! Comments of a line, found by their offsets.
One pass over the characters with their offsets, which goes on after a comment where the search for
its end stops. A comment is the slice of the line between two offsets.
-/

namespace Gcode.CommentedLine

open Text

/-- Where a comment ends: after the closing parenthesis that was found, or with the line. -/
def endOffset (line : List Char) : List (Nat × Char) → Nat
  | [] => byteLength line
  | (offset, _) :: _ => offset + 1

/-- The code and the comments from some character of a line on, when all slices exist. -/
def scanOffsets? (line : List Char) : List (Nat × Char) → Option CommentedLine
  | [] => some ⟨[], []⟩
  | (start, ';') :: _ => do
      let comment ← slice? line start (byteLength line)
      return ⟨[' '], [comment]⟩
  | (start, '(') :: rest => do
      let closing := rest.dropWhile fun (_, c) => c ≠ ')'
      let comment ← slice? line start (endOffset line closing)
      let after ← scanOffsets? line (closing.drop 1)
      return ⟨' ' :: after.code, comment :: after.comments⟩
  | (_, c) :: rest => do
      let after ← scanOffsets? line rest
      return ⟨c :: after.code, after.comments⟩
termination_by characters => characters.length
decreasing_by
  · have := (List.dropWhile_sublist (l := rest) fun entry => entry.2 ≠ ')').length_le
    simp only [List.length_drop, List.length_cons]
    omega
  · simp

def ofLineByOffsets? (line : List Char) : Option CommentedLine :=
  scanOffsets? line (indexed 0 line)

end Gcode.CommentedLine
