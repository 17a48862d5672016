/-! Comments of a line.
A semicolon starts a comment that runs to the end of the line. A parenthesis starts one that ends
with the first closing parenthesis, or with the line.
-/

namespace Gcode

/-- A line taken apart: its code, with a space for every comment, and its comments with their
delimiters, in order.
-/
structure CommentedLine where
  code : List Char
  comments : List (List Char)

namespace CommentedLine

/-- The rest of a comment after its opening parenthesis, and the text after the comment. -/
def splitParenthesis (text : List Char) : List Char × List Char :=
  (text.takeWhile (· ≠ ')') ++ (text.dropWhile (· ≠ ')')).take 1,
    (text.dropWhile (· ≠ ')')).drop 1)

def ofLine : List Char → CommentedLine
  | [] => ⟨[], []⟩
  | ';' :: text => ⟨[' '], [';' :: text]⟩
  | '(' :: text =>
      let after := ofLine (splitParenthesis text).2
      ⟨' ' :: after.code, ('(' :: (splitParenthesis text).1) :: after.comments⟩
  | c :: text =>
      let after := ofLine text
      ⟨c :: after.code, after.comments⟩
termination_by text => text.length
decreasing_by
  · have := (List.dropWhile_sublist (l := text) (· ≠ ')')).length_le
    simp only [splitParenthesis, List.length_drop, List.length_cons]
    omega
  · simp

end CommentedLine
end Gcode
