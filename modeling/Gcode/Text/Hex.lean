/-! Characters given by hexadecimal code points. -/

namespace Gcode.Text

def hexValue? (c : Char) : Option Nat :=
  if c.isDigit then some (c.toNat - '0'.toNat)
  else if 'a' ≤ c ∧ c ≤ 'f' then some (c.toNat - 'a'.toNat + 10)
  else if 'A' ≤ c ∧ c ≤ 'F' then some (c.toNat - 'A'.toNat + 10)
  else none

/-- The number with hexadecimal digits, at least one. -/
def hexNumber? (text : List Char) : Option Nat := do
  guard (text ≠ [])
  let values ← text.mapM hexValue?
  return values.foldl (16 * · + ·) 0

/-- The character with a hexadecimal code point. -/
def hexChar? (text : List Char) : Option Char := do
  let code ← hexNumber? text
  if code.isValidChar then some (Char.ofNat code) else none

end Gcode.Text
