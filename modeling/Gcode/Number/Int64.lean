import Gcode.Number.Shortest

/-! Integers of 64 bits: the values of integer words and the keys of codes. -/

namespace Gcode.Number

/-- An integer as one of 64 bits, when it fits. -/
def toInt64? (n : Int) : Option Int64 :=
  if Int64.minValue.toInt ≤ n ∧ n ≤ Int64.maxValue.toInt then some (Int64.ofInt n) else none

/-- An integer of 64 bits with an optional sign. -/
def readInt64? (text : List Char) : Option Int64 :=
  (readInt? text).bind toInt64?

def intText (n : Int) : List Char :=
  signText (n < 0) ++ digits n.natAbs

namespace Binary64

/-- The integer part, cut off toward zero; the infinities go to the end of the 64-bit range and
NaN goes to zero.
-/
def truncate (x : Binary64) : Int64 :=
  Int64.ofIntClamp ((x.signedUnits?.getD 0).tdiv unitsPerOne)

/-- Ten times the number, rounded to a binary64 number and from there to the nearest integer,
halves away from zero, at most to the ends of the 64-bit range.
-/
def tenths (x : Binary64) : Int64 :=
  let units := x.signedUnits?.getD 0
  let product := nearest (10 * units.natAbs) 1
  let rounded : Int := ((product + unitsPerOne / 2) / unitsPerOne : Nat)
  Int64.ofIntClamp (if units < 0 then -rounded else rounded)

end Binary64
end Gcode.Number
