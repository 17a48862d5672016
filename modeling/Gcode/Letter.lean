/-! Address letters.
Every word starts with one of the letters A to Z; program text may write it in either case.
-/

namespace Gcode

/-- A capital letter of the basic Latin alphabet. -/
structure Letter where
  char : Char
  isUpper : char.isUpper
deriving DecidableEq

namespace Letter

/-- The letter that a character writes, in either case. -/
def ofChar? (c : Char) : Option Letter :=
  if h : c.toUpper.isUpper then some ⟨c.toUpper, h⟩ else none

/-- The alphabet, in order. -/
def all : List Letter :=
  "ABCDEFGHIJKLMNOPQRSTUVWXYZ".toList.filterMap ofChar?

end Letter
end Gcode
