/-! Decimal digits of natural numbers, and the point among them. -/

namespace Gcode.Number

/-- The decimal digits of a number, without superfluous zeros. -/
def digits (n : Nat) : List Char :=
  Nat.toDigits 10 n

/-- The number that decimal digits denote. -/
def ofDigits (text : List Char) : Nat :=
  Nat.ofDigitChars 10 text 0

theorem ofDigits_digits (n : Nat) : ofDigits (digits n) = n :=
  Nat.ofDigitChars_ten_toDigits

/-- The digits of a number, filled with zeros to a width. -/
def paddedDigits (width n : Nat) : List Char :=
  List.replicate (width - (digits n).length) '0' ++ digits n

/-- `n / 10 ^ places` with exactly that many digits after the point, and no point for none. -/
def positional (n places : Nat) : List Char :=
  if places = 0 then digits n
  else digits (n / Nat.pow 10 places) ++ '.' :: paddedDigits places (n % Nat.pow 10 places)

end Gcode.Number
