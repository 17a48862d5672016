import Gcode.Number.Numeral

/-! The shortest decimal text of a binary64 number.
Of all numerals that read back to the number, the one with the coarsest last place is taken, and
of two on that place the nearer one.
-/

namespace Gcode.Number

namespace Binary64

/-- A magnitude as a quotient of steps of `10 ^ exponent`. -/
def inSteps (units : Nat) (exponent : Int) : Nat × Nat :=
  if 0 ≤ exponent then (units, unitsPerOne * Nat.pow 10 exponent.toNat)
  else (units * Nat.pow 10 (-exponent).toNat, unitsPerOne)

/-- The numeral with its last place at `10 ^ exponent` that reads back to a magnitude. Only the
two next to the magnitude can; of both the nearer is taken, and the upper one at a tie.
-/
def numeralAt? (units : Nat) (exponent : Int) : Option Numeral :=
  let (num, den) := inSteps units exponent
  let below : Numeral := ⟨num / den, exponent⟩
  let above : Numeral := ⟨num / den + 1, exponent⟩
  if below.nearest = units then
    if above.nearest = units ∧ den ≤ 2 * (num % den) then some above else some below
  else if above.nearest = units then some above
  else none

/-- Tries the places from `10 ^ (places - 1074)` downward. At `10 ^ -1074` every magnitude is a
whole number of steps, so the search ends there with the exact numeral.
-/
def shortestFrom (units : Nat) : Nat → Numeral
  | 0 => ⟨units * Nat.pow 5 1074, -1074⟩
  | places + 1 =>
      (numeralAt? units ((places + 1 : Nat) - 1074)).getD (shortestFrom units places)

/-- An exponent of ten whose power no number of this magnitude reaches: `30103 / 100000` is just
above the decimal logarithm of two.
-/
def decimalCeiling (units : Nat) : Int :=
  ((units.log2 : Int) - 1073) * 30103 / 100000 + 1

/-- The shortest numeral that reads back to a magnitude. -/
def shortest (units : Nat) : Numeral :=
  shortestFrom units (decimalCeiling units + 1074).toNat

end Binary64

/-- A numeral written out with a point and without an exponent. -/
def Numeral.toText (n : Numeral) : List Char :=
  if 0 ≤ n.exponent then positional (n.digits * Nat.pow 10 n.exponent.toNat) 0
  else positional n.digits (-n.exponent).toNat

/-- A minus sign for negative numbers. -/
def signText (negative : Bool) : List Char :=
  if negative then ['-'] else []

/-- The shortest text that reads back to a number, never with an exponent. -/
def Binary64.toText : Binary64 → List Char
  | .nan => "NaN".toList
  | .infinity negative => signText negative ++ "inf".toList
  | .finite negative units _ =>
      signText negative ++ if units = 0 then ['0'] else (shortest units).toText

end Gcode.Number
