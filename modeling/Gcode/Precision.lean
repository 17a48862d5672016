/-! The number of decimal places that positions are written with. -/

namespace Gcode

structure Precision where
  places : Nat
  le_max : places ≤ 15 := by decide
deriving DecidableEq

namespace Precision

/-- The largest number of places. -/
def max : Nat := 15

def ofInt? (n : Int) : Option Precision :=
  if h : 0 ≤ n ∧ n ≤ 15 then some ⟨n.toNat, by omega⟩ else none

/-- Three places. -/
def standard : Precision := ⟨3, by decide⟩

end Precision
end Gcode
