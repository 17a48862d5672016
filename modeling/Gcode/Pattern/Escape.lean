import Gcode.Pattern.Expr
import Gcode.Text.Hex

/-! Escapes: what a backslash and the characters after it stand for in a pattern. -/

namespace Gcode.Pattern

inductive Escape where
  | char (c : Char)
  | set (set : CharSet)
  | anchor (anchor : Anchor)

/-- A hexadecimal code point of fixed width, or of any width in braces. -/
def readHex? (width : Nat) : List Char → Option (Char × List Char)
  | '{' :: text =>
      match text.dropWhile (· ≠ '}') with
      | '}' :: rest => (Text.hexChar? (text.takeWhile (· ≠ '}'))).map (·, rest)
      | _ => none
  | text =>
      if width ≤ text.length then (Text.hexChar? (text.take width)).map (·, text.drop width)
      else none

/-- Whether a backslash before a character stands for the character itself: so it does before
punctuation, blanks and control characters of ASCII, angle brackets apart.
-/
def isEscapable (c : Char) : Bool :=
  c.toNat < 0x80 && !c.isAlphanum && c != '<' && c != '>'

/-- Reads what follows a backslash. -/
def readEscape? : List Char → Option (Escape × List Char)
  | [] => none
  | 'd' :: rest => some (.set .digit, rest)
  | 's' :: rest => some (.set .blank, rest)
  | 'w' :: rest => some (.set .wordChar, rest)
  | 'D' :: rest => some (.set CharSet.digit.compl, rest)
  | 'S' :: rest => some (.set CharSet.blank.compl, rest)
  | 'W' :: rest => some (.set CharSet.wordChar.compl, rest)
  | 'A' :: rest => some (.anchor .textStart, rest)
  | 'z' :: rest => some (.anchor .textEnd, rest)
  | 'b' :: rest => some (.anchor .wordEdge, rest)
  | 'B' :: rest => some (.anchor .notWordEdge, rest)
  | 'a' :: rest => some (.char '\x07', rest)
  | 'f' :: rest => some (.char '\x0C', rest)
  | 't' :: rest => some (.char '\t', rest)
  | 'n' :: rest => some (.char '\n', rest)
  | 'r' :: rest => some (.char '\r', rest)
  | 'v' :: rest => some (.char '\x0B', rest)
  | 'x' :: rest => (readHex? 2 rest).map fun (c, rest) => (.char c, rest)
  | 'u' :: rest => (readHex? 4 rest).map fun (c, rest) => (.char c, rest)
  | 'U' :: rest => (readHex? 8 rest).map fun (c, rest) => (.char c, rest)
  | c :: rest => if isEscapable c then some (.char c, rest) else none

end Gcode.Pattern
