/-! The lines of a document.
A line ends at a line feed, alone or after one carriage return; a carriage return anywhere else
is part of its line, and the last line needs no end.
-/

namespace Gcode.Text

def lines : List Char → List (List Char)
  | [] => []
  | '\n' :: text => [] :: lines text
  | '\r' :: '\n' :: text => [] :: lines text
  | c :: text =>
      match text, lines text with
      | [], _ => [[c]]
      | _, line :: rest => (c :: line) :: rest
      | _, [] => [[c]]

/-- The document that writes each line with a line feed after it. -/
def unlines (content : List (List Char)) : List Char :=
  content.flatMap (· ++ ['\n'])

end Gcode.Text
