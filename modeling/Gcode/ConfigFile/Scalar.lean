import Gcode.Number.Numeral
import Gcode.Text.Hex

/-! Booleans, numbers and dates of configuration files.
Nothing here uses their values, but a file in which one is malformed is refused.
-/

namespace Gcode.ConfigFile.Scalar

/-- Digits with single underscores between them. -/
def isDigits (digit : Char → Bool) : List Char → Bool
  | [] => false
  | [c] => digit c
  | c :: '_' :: rest => digit c && isDigits digit rest
  | c :: rest => digit c && isDigits digit rest

/-- Decimal digits that do not start with a superfluous zero. -/
def isDecimal (text : List Char) : Bool :=
  isDigits Char.isDigit text && (text == ['0'] || text.head? != some '0')

def dropSign : List Char → List Char
  | '+' :: text => text
  | '-' :: text => text
  | text => text

/-- The number with digits of a radix, if all of them are digits of it. -/
def magnitude? (radix : Nat) (digits : List Char) : Option Nat :=
  let values := digits.filterMap Text.hexValue?
  if values.all (· < radix) then some (values.foldl (radix * · + ·) 0) else none

/-- Integers take at most 128 bits, of which negative ones need one for the sign. -/
def isInteger (text : List Char) : Bool :=
  let fits (radix : Nat) (digits : List Char) := (magnitude? radix digits).any (· < Nat.pow 2 128)
  match text with
  | '0' :: 'x' :: digits => isDigits (fun c => (Text.hexValue? c).isSome) digits && fits 16 digits
  | '0' :: 'o' :: digits => isDigits Char.isDigit digits && fits 8 digits
  | '0' :: 'b' :: digits => isDigits Char.isDigit digits && fits 2 digits
  | '-' :: digits => isDecimal digits && (magnitude? 10 digits).any (· ≤ Nat.pow 2 127)
  | text => isDecimal (dropSign text) && fits 10 (dropSign text)

def isExponent : List Char → Bool
  | c :: text => (c == 'e' || c == 'E') && isDigits Char.isDigit (dropSign text)
  | [] => false

/-- Whether a text is a number with a fraction or an exponent. -/
def isFractional (text : List Char) : Bool :=
  let isWhole (c : Char) := c.isDigit || c == '_'
  isDecimal (text.takeWhile isWhole)
    && match text.dropWhile isWhole with
      | '.' :: rest =>
          isDigits Char.isDigit (rest.takeWhile isWhole)
            && (rest.dropWhile isWhole == [] || isExponent (rest.dropWhile isWhole))
      | rest => isExponent rest

/-- Only the names of the infinities denote them: numerals that are too large do not. -/
def isFloat (text : List Char) : Bool :=
  let body := dropSign text
  body == "inf".toList || body == "nan".toList
    || isFractional body
      && (Number.Binary64.read? (body.filter (· != '_'))).any Number.Binary64.isFinite

/-- A number of exactly that many digits. -/
def number? (width : Nat) (text : List Char) : Option (Nat × List Char) :=
  let digits := text.take width
  if digits.length = width ∧ digits.all Char.isDigit then
    some (Nat.ofDigitChars 10 digits 0, text.drop width)
  else none

def daysIn (year month : Nat) : Nat :=
  if month = 2 then
    if year % 4 = 0 ∧ (year % 100 ≠ 0 ∨ year % 400 = 0) then 29 else 28
  else if month = 4 ∨ month = 6 ∨ month = 9 ∨ month = 11 then 30
  else 31

/-- Reads `YYYY-MM-DD`. -/
def date? (text : List Char) : Option (List Char) := do
  let (year, text) ← number? 4 text
  let '-' :: text := text | none
  let (month, text) ← number? 2 text
  let '-' :: text := text | none
  let (day, text) ← number? 2 text
  guard (1 ≤ month ∧ month ≤ 12 ∧ 1 ≤ day ∧ day ≤ daysIn year month)
  return text

/-- Reads `HH:MM`. -/
def hoursAndMinutes? (text : List Char) : Option (List Char) := do
  let (hour, text) ← number? 2 text
  let ':' :: text := text | none
  let (minute, text) ← number? 2 text
  guard (hour ≤ 23 ∧ minute ≤ 59)
  return text

/-- Reads a time; its seconds and their fraction may be missing. -/
def time? (text : List Char) : Option (List Char) := do
  let text ← hoursAndMinutes? text
  match text with
  | ':' :: text =>
      let (second, text) ← number? 2 text
      guard (second ≤ 60)
      match text with
      | '.' :: text =>
          guard (text.takeWhile Char.isDigit ≠ [])
          return text.dropWhile Char.isDigit
      | text => return text
  | text => return text

/-- Whether a text is an offset from universal time, or nothing. -/
def isOffset : List Char → Bool
  | [] => true
  | ['Z'] => true
  | ['z'] => true
  | '+' :: text => hoursAndMinutes? text == some []
  | '-' :: text => hoursAndMinutes? text == some []
  | _ => false

def isDateTime (text : List Char) : Bool :=
  time? text == some []
    || match date? text with
      | some [] => true
      | some (separator :: text) =>
          (separator == 'T' || separator == 't' || separator == ' ')
            && (time? text).any isOffset
      | none => false

def isValid (text : List Char) : Bool :=
  text == "true".toList || text == "false".toList || isInteger text || isFloat text
    || isDateTime text

def isScalarChar (c : Char) : Bool :=
  c.isAlphanum || c == '+' || c == '-' || c == '_' || c == '.' || c == ':'

/-- The scalar at the start of a text, and the rest. A time may follow its date after a space. -/
def split (text : List Char) : List Char × List Char :=
  let word := text.takeWhile isScalarChar
  match date? word, text.dropWhile isScalarChar with
  | some [], ' ' :: c :: rest =>
      if c.isDigit then
        (word ++ ' ' :: (c :: rest).takeWhile isScalarChar, (c :: rest).dropWhile isScalarChar)
      else (word, ' ' :: c :: rest)
  | _, rest => (word, rest)

end Gcode.ConfigFile.Scalar
