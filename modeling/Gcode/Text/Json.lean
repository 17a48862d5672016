/-! Strings in JSON. -/

namespace Gcode.Text

def hexDigit (n : Nat) : Char :=
  "0123456789abcdef".toList.getD n '0'

/-- A character as it stands in a JSON string: quotes, backslashes and control characters are
escaped, and all else stands for itself.
-/
def escapeJson (c : Char) : List Char :=
  match c with
  | '"' => ['\\', '"']
  | '\\' => ['\\', '\\']
  | '\x08' => ['\\', 'b']
  | '\t' => ['\\', 't']
  | '\n' => ['\\', 'n']
  | '\x0C' => ['\\', 'f']
  | '\r' => ['\\', 'r']
  | c =>
      if c.toNat < 0x20 then
        ['\\', 'u', '0', '0', hexDigit (c.toNat / 16), hexDigit (c.toNat % 16)]
      else [c]

/-- A text as a JSON string. -/
def quoteJson (text : List Char) : List Char :=
  '"' :: text.flatMap escapeJson ++ ['"']

end Gcode.Text
