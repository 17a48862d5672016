import Gcode.Number.Fixed

/-! Texts with a fixed number of decimal places, where zero is told from the text alone.
A rounded text is read again, and if it is zero, its sign and the digit before its point are left
out.
-/

namespace Gcode.Number

/-- The number rounded to decimal places, with the sign that it has. -/
def Binary64.toRounded (x : Binary64) (places : Nat) : List Char :=
  match x with
  | .finite negative units _ => signText negative ++ positional (decimalSteps units places) places
  | x => x.toText

/-- A text of zero without signs and without the zero before its point. -/
def stripZero (text : List Char) : List Char :=
  match text.dropWhile fun c => c == '+' || c == '-' with
  | ['0'] => ['0']
  | '0' :: rest => rest
  | _ => ['0']

def Binary64.toStripped (x : Binary64) (places : Nat) : List Char :=
  let text := x.toRounded places
  match Binary64.read? text with
  | some again => if again.eq (.zero false) then stripZero text else text
  | none => text

end Gcode.Number
