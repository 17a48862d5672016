import Gcode.Number.Rounding

/-! Binary64 numbers, held exactly.
Every finite one is a whole number of units of `2 ^ -1074`, so comparing and rounding are
arithmetic on natural numbers.
-/

namespace Gcode.Number

namespace Binary64

/-- One is `2 ^ 1074` units. -/
def unitsPerOne : Nat := Nat.pow 2 1074

/-- The least magnitude past the finite numbers, `2 ^ 1024` in units. -/
def overflow : Nat := Nat.pow 2 2098

/-- The distance from a magnitude to the next larger one: 53 binary digits are kept. -/
def spacing (units : Nat) : Nat :=
  Nat.pow 2 (units.log2 - 52)

/-- A magnitude some finite number has. -/
structure Representable (units : Nat) : Prop where
  dvd : spacing units ∣ units
  lt : units < overflow

/-- The nearest magnitude to a quotient of units, ties to an even last digit, were there no
largest one.
-/
def nearest (num den : Nat) : Nat :=
  let step := spacing (num / den)
  roundHalfEven num (den * step) * step

/-- Rounding keeps 53 binary digits, also when it carries into a new digit. -/
theorem spacing_dvd_nearest (num den : Nat) : spacing (nearest num den) ∣ nearest num den := by
  let s := (num / den).log2 - 52
  have hs : nearest num den = roundHalfEven num (den * 2 ^ s) * 2 ^ s := rfl
  have hq : num / den < 2 ^ (53 + s) :=
    Nat.lt_of_lt_of_le Nat.lt_log2_self (Nat.pow_le_pow_right (by decide) (by omega))
  have hr : roundHalfEven num (den * 2 ^ s) ≤ 2 ^ 53 := by
    have hd : num / (den * 2 ^ s) < 2 ^ 53 := by
      rw [← Nat.div_div_eq_div_mul]
      exact Nat.div_lt_of_lt_mul (by rwa [Nat.mul_comm, ← Nat.pow_add])
    exact Nat.le_trans (roundHalfEven_le ..) hd
  rw [hs]
  generalize roundHalfEven num (den * 2 ^ s) = r at hr
  rcases Nat.lt_or_eq_of_le hr with hr | rfl
  · rcases Nat.eq_zero_or_pos r with rfl | hp
    · simp
    · have hne : r * 2 ^ s ≠ 0 := Nat.ne_of_gt (Nat.mul_pos hp (Nat.two_pow_pos s))
      have hlog : (r * 2 ^ s).log2 < 53 + s := by
        rw [Nat.log2_lt hne, Nat.pow_add]
        exact Nat.mul_lt_mul_of_pos_right hr (Nat.two_pow_pos s)
      exact Nat.dvd_trans (Nat.pow_dvd_pow 2 (by omega)) (Nat.dvd_mul_left ..)
  · rw [← Nat.pow_add, spacing, Nat.log2_two_pow]
    exact Nat.pow_dvd_pow 2 (by omega)

end Binary64

inductive Binary64 where
  | nan
  | infinity (negative : Bool)
  | finite (negative : Bool) (units : Nat) (representable : Binary64.Representable units)
deriving DecidableEq

namespace Binary64

/-- The number nearest to a quotient of units; a magnitude past the finite ones is infinite. -/
def ofRatio (negative : Bool) (num den : Nat) : Binary64 :=
  if h : nearest num den < overflow then
    .finite negative (nearest num den) ⟨spacing_dvd_nearest num den, h⟩
  else .infinity negative

theorem representable_zero : Representable 0 where
  dvd := ⟨0, rfl⟩
  lt := by decide +kernel

/-- Zero with a sign. -/
def zero (negative : Bool) : Binary64 :=
  .finite negative 0 representable_zero

def ofInt (n : Int) : Binary64 :=
  ofRatio (n < 0) (n.natAbs * unitsPerOne) 1

def isFinite : Binary64 → Bool
  | .finite .. => true
  | _ => false

/-- Units with the sign, the infinities just past the finite numbers; nothing for NaN. -/
def signedUnits? : Binary64 → Option Int
  | .nan => none
  | .infinity negative => some (if negative then -overflow else overflow)
  | .finite negative units _ => some (if negative then -units else units)

/-- The numerical order, in which the zeros are equal and NaN is beside everything. -/
def compare? (x y : Binary64) : Option Ordering := do
  return compare (← x.signedUnits?) (← y.signedUnits?)

/-- Numerical equality: the zeros are equal and NaN equals nothing. -/
def eq (x y : Binary64) : Bool :=
  x.compare? y == some .eq

/-- The value as an integer, when it is one. -/
def toInt? : Binary64 → Option Int
  | .finite negative units _ =>
      if units % unitsPerOne = 0 then
        let n : Int := (units / unitsPerOne : Nat)
        some (if negative then -n else n)
      else none
  | _ => none

/-- The IEEE 754 encoding: below the sign, the place of the magnitude in the order of all
magnitudes.
-/
def toBits : Binary64 → Nat
  | .nan => 0x7FF8000000000000
  | .infinity negative => signBit negative + 0x7FF0000000000000
  | .finite negative units _ =>
      signBit negative + (units.log2 - 52) * Nat.pow 2 52 + units / spacing units
where
  signBit (negative : Bool) : Nat := if negative then Nat.pow 2 63 else 0

end Binary64
end Gcode.Number
