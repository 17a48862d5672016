import Gcode.Number.Shortest

/-! Texts of binary64 numbers for program words.
Positions have a fixed number of decimal places, codes at least two digits before the point.
-/

namespace Gcode.Number

/-- A magnitude as a number of steps of `10 ^ -places`, rounded half to even. -/
def Binary64.decimalSteps (units places : Nat) : Nat :=
  roundHalfEven (units * Nat.pow 10 places) unitsPerOne

/-- What is written for a number that rounds to zero: no sign and no digit before the point. -/
def zeroText (places : Nat) : List Char :=
  if places = 0 then ['0'] else '.' :: List.replicate places '0'

/-- The text with a fixed number of decimal places. -/
def Binary64.toFixed (x : Binary64) (places : Nat) : List Char :=
  match x with
  | .finite negative units _ =>
      let steps := decimalSteps units places
      if steps = 0 then zeroText places else signText negative ++ positional steps places
  | x => x.toText

def ten : Binary64 := .ofInt 10

/-- The text of a code: a zero before the shortest text of numbers below ten. -/
def Binary64.toCode (x : Binary64) : List Char :=
  if x.compare? ten = some .lt then '0' :: x.toText else x.toText

end Gcode.Number
