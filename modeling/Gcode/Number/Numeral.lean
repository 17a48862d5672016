import Gcode.Number.Binary64
import Gcode.Number.Digits

/-! Decimal numerals and the binary64 number nearest to each.
Numeral text is an optional sign, digits with at most one point among or around them, and an
optional exponent; the names of the infinities and of NaN are read in any case.
-/

namespace Gcode.Number

/-- The decimal number `digits · 10 ^ exponent`. -/
structure Numeral where
  digits : Nat
  exponent : Int
deriving DecidableEq

namespace Numeral

/-- The magnitude nearest to a numeral, were there no largest one. -/
def nearest (n : Numeral) : Nat :=
  if 0 ≤ n.exponent then
    Binary64.nearest (n.digits * Nat.pow 10 n.exponent.toNat * Binary64.unitsPerOne) 1
  else Binary64.nearest (n.digits * Binary64.unitsPerOne) (Nat.pow 10 (-n.exponent).toNat)

/-- The binary64 number nearest to a numeral. Numerals that are plainly too large or too small
are told apart first, so that no huge power of ten is ever formed.
-/
def toBinary64 (negative : Bool) (n : Numeral) : Binary64 :=
  if n.digits = 0 then .zero negative
  else if 309 ≤ n.exponent then .infinity negative
  else if n.exponent < -(n.digits.log2 + 1100 : Nat) then .zero negative
  else if 0 ≤ n.exponent then
    .ofRatio negative (n.digits * Nat.pow 10 n.exponent.toNat * Binary64.unitsPerOne) 1
  else .ofRatio negative (n.digits * Binary64.unitsPerOne) (Nat.pow 10 (-n.exponent).toNat)

end Numeral

/-- A sign, if there is one, and the text after it; the Boolean says that it is a minus. -/
def splitSign : List Char → Bool × List Char
  | '-' :: text => (true, text)
  | '+' :: text => (false, text)
  | text => (false, text)

/-- Digits and nothing else, at least one of them. -/
def readDigits? (text : List Char) : Option Nat :=
  if text ≠ [] ∧ text.all Char.isDigit then some (ofDigits text) else none

/-- An integer with an optional sign. -/
def readInt? (text : List Char) : Option Int :=
  let (negative, body) := splitSign text
  (readDigits? body).map fun n => if negative then -n else n

/-- An exponent with its letter; no text is the exponent zero. -/
def readExponent? : List Char → Option Int
  | [] => some 0
  | c :: text => if c = 'e' ∨ c = 'E' then readInt? text else none

/-- The digits at the start of a text, the digits after the point that may follow them, and the
rest.
-/
def splitPoint (text : List Char) : List Char × List Char × List Char :=
  let whole := text.takeWhile Char.isDigit
  match text.dropWhile Char.isDigit with
  | '.' :: rest => (whole, rest.takeWhile Char.isDigit, rest.dropWhile Char.isDigit)
  | rest => (whole, [], rest)

/-- A numeral without a sign: at least one digit before or after the point. -/
def Numeral.read? (text : List Char) : Option Numeral :=
  let (whole, fraction, rest) := splitPoint text
  if whole ++ fraction = [] then none
  else (readExponent? rest).map fun exponent =>
    ⟨ofDigits (whole ++ fraction), exponent - fraction.length⟩

/-- The binary64 number that a text denotes. -/
def Binary64.read? (text : List Char) : Option Binary64 :=
  let (negative, body) := splitSign text
  let name := String.ofList (body.map Char.toLower)
  if name = "inf" ∨ name = "infinity" then some (.infinity negative)
  else if name = "nan" then some .nan
  else (Numeral.read? body).map (·.toBinary64 negative)

end Gcode.Number
