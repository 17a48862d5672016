import Gcode.Proofs.Number.WholeText
import Gcode.Proofs.Word.ReadBack

/-! Taking a value over into a kind, and reading the text of the value in that kind.
Both give the same, but for real numbers as integers: there the text may denote another integer
than the one that the number is.
-/

namespace Gcode

open Number Text

-----------------------------------------------------------------------------------------
-- Texts of numbers
-----------------------------------------------------------------------------------------

namespace Value

theorem trim_toText_integer (n : Int64) : trim (integer n).toText = intText n.toInt :=
  trim_of_solid (solid_intText n.toInt)

theorem trim_toText_real (x : Binary64) : trim (real x).toText = x.toText :=
  trim_of_solid x.solid_toText

theorem read?_toText_real (x : Binary64)
    : Value.read? .real (real x).toText = finiteReal? x := by
  rw [Value.read?, trim_toText_real]
  cases finite : x.isFinite with
  | true => exact congrArg (·.bind finiteReal?) (Binary64.read?_toText finite)
  | false =>
      -- the names of the infinities and of NaN are read, and refused
      cases x with
      | nan => decide +kernel
      | infinity negative => cases negative <;> decide +kernel
      | finite => contradiction

/-- The integer that is read from the text of a real number. -/
theorem read?_toText_integer_of_real (x : Binary64)
    : Value.read? .integer (real x).toText
      = ((x.toInt?.map Binary64.shortestInt).bind toInt64?).map integer := by
  rw [Value.read?, trim_toText_real, readInt64?]
  cases whole : x.toInt? with
  | none =>
      rw [Binary64.readInt?_toText_of_none whole]
      rfl
  | some n =>
      rw [Binary64.readInt?_toText whole]
      rfl

/-- The text of a value reads as the value is taken over, but for real numbers as integers. -/
theorem coerce?_eq_read?_toText {kind : ValueKind} {value : Value}
    (other : ∀ x, kind = .integer → value ≠ .real x)
    : value.coerce? kind = Value.read? kind value.toText := by
  cases value with
  | integer n =>
      have trimmed := trim_toText_integer n
      cases kind with
      | integer => rw [Value.read?, trimmed, readInt64?_intText, toInt64?_toInt]; rfl
      | real =>
          have read : Value.read? .real (intText n.toInt) = some (real (.ofInt n.toInt)) :=
            read?_real_of_trim trimmed (Binary64.read?_intText n.toInt) (isFinite_ofInt n)
          exact read.symm
      | text => rw [Value.read?, trimmed]; rfl
  | real x =>
      cases kind with
      | integer => exact absurd rfl (other x rfl)
      | real => exact (read?_toText_real x).symm
      | text => rw [Value.read?, trim_toText_real]; rfl
  | text t => cases kind <;> rfl

-----------------------------------------------------------------------------------------
-- Real numbers as integers
-----------------------------------------------------------------------------------------

/-- A real number goes to the integer that it is narrowed to. -/
theorem coerce?_integer_eq_narrow? (x : Binary64)
    : (real x).coerce? .integer = x.narrow?.map integer := by
  rw [Binary64.narrow?_eq]
  rfl

theorem coerce?_integer_of_real {x : Binary64} {n : Int} (whole : x.toInt? = some n)
    : (real x).coerce? .integer = (toInt64? n).map integer := by
  rw [coerce?, whole]
  rfl

theorem natAbs_lt_of_toInt64?_eq_none {n : Int} (past : toInt64? n = none)
    : ¬ n.natAbs < 2 ^ 63 := by
  intro small
  rw [toInt64?_eq, if_pos (by omega)] at past
  contradiction

/-- A real number goes to the integer that its text denotes exactly if its text spells out the
integer of 64 bits that it is, if it is one.
-/
theorem coerce?_integer_eq_read?_iff (x : Binary64)
    : (real x).coerce? .integer = Value.read? .integer (real x).toText
      ↔ ∀ n : Int64, x.toInt? = some n.toInt → readInt? x.toText = some n.toInt := by
  rw [read?_toText_integer_of_real]
  cases whole : x.toInt? with
  | none => simp [coerce?, whole]
  | some n =>
      have shown := Binary64.readInt?_toText whole
      rw [coerce?_integer_of_real whole, shown]
      cases fits : toInt64? n with
      | none =>
          have past : toInt64? (Binary64.shortestInt n) = none := by
            rw [← Option.not_isSome_iff_eq_none, Binary64.isSome_toInt64?_shortestInt whole]
            exact natAbs_lt_of_toInt64?_eq_none fits
          refine iff_of_true (congrArg _ past.symm) ?_
          intro other same
          rw [Option.some.inj same, toInt64?_toInt] at fits
          contradiction
      | some own =>
          obtain rfl := toInt64?_eq_some_iff.1 fits
          constructor
          · intro agree
            have read : toInt64? (Binary64.shortestInt own.toInt) = some own :=
              Option.map_injective (fun _ _ => Value.integer.inj) agree.symm
            intro other same
            exact (congrArg some (toInt64?_eq_some_iff.1 read).symm).trans same
          · intro spelled
            have same := Option.some.inj (spelled own rfl)
            change _ = (toInt64? (Binary64.shortestInt own.toInt)).map integer
            rw [same, fits]

/-- An integer of 64 bits that a real number is goes to the number again, or to the other zero. -/
theorem eq_of_toInt? {x : Binary64} {n : Int64} (whole : x.toInt? = some n.toInt)
    : (Binary64.ofInt n.toInt).eq x := by
  have units := Binary64.signedUnits?_ofInt (natAbs_toInt_le n)
  rw [Binary64.nearestInt_of_toInt? whole] at units
  exact Binary64.eq_iff.2 ⟨_, units, Binary64.signedUnits?_of_toInt? whole⟩

end Value

/-- A value is taken over into the kind of a rule as the rule reads the text of the value, exactly
if it is no real number that is an integer of 64 bits with another integer in its text. Such a
number goes to the integer that it is. The integer in its text is the same real number; it is the
same integer below `2 ^ 53`, and past 64 bits only for the least integer.
-/
theorem Rule.coerce?_eq_read?_iff (rule : Rule) (value : Value)
    : (value.coerce? rule.kind = rule.read? value.toText
        ↔ ∀ x (n : Int64), rule.kind = .integer → value = .real x → x.toInt? = some n.toInt
            → readInt? x.toText = some n.toInt)
      ∧ ∀ x (n : Int64), value = .real x → x.toInt? = some n.toInt
          → value.coerce? .integer = some (.integer n)
            ∧ ∃ m, readInt? x.toText = some m ∧ (Binary64.ofInt m).eq x
              ∧ (n.toInt.natAbs < 2 ^ 53 → m = n.toInt)
              ∧ (toInt64? m = none ↔ n = Int64.minValue) := by
  constructor
  · by_cases other : ∀ x, rule.kind = .integer → value ≠ .real x
    · refine iff_of_true (Value.coerce?_eq_read?_toText other) ?_
      intro x n kind same
      exact absurd same (other x kind)
    · push Not at other
      obtain ⟨x, kind, rfl⟩ := other
      have single := Value.coerce?_integer_eq_read?_iff x
      rw [Rule.read?, kind, single]
      constructor
      · intro spelled y n _ same
        cases same
        exact spelled n
      · intro spelled n
        exact spelled x n rfl rfl
  · rintro x n rfl whole
    have shown := Binary64.readInt?_toText whole
    refine ⟨?_, Binary64.shortestInt n.toInt, shown, ?_, Binary64.shortestInt_of_lt, ?_⟩
    · rw [Value.coerce?_integer_of_real whole, toInt64?_toInt]
      rfl
    · rw [Binary64.ofInt_shortestInt whole]
      exact Value.eq_of_toInt? whole
    · have fits := Binary64.isSome_toInt64?_shortestInt whole
      have bound := Value.natAbs_toInt_le n
      rw [← Option.not_isSome_iff_eq_none, fits, ← Int64.toInt_inj, Int64.toInt_minValue]
      have high := n.toInt_lt
      omega

/-- The text of `2 ^ 60` as a real number ends in zeros, and that of `-2 ^ 63` is no integer of 64
bits, while the numbers themselves are.
-/
theorem coerce?_ne_read?_two_pow
    : let rule := Dialect.LinuxCnc.integer "Line (block) number"
      let large : Value := .real (.ofInt (2 ^ 60))
      let least : Value := .real (.ofInt (-2 ^ 63))
      Dialect.linuxCnc.rules ⟨'N', rfl⟩ = some rule
      ∧ large.coerce? rule.kind = some (.integer 1152921504606846976)
      ∧ rule.read? large.toText = some (.integer 1152921504606847000)
      ∧ least.coerce? rule.kind = some (.integer Int64.minValue)
      ∧ rule.read? least.toText = none := by
  refine ⟨rfl, ?_, ?_, ?_, ?_⟩ <;> decide +kernel

end Gcode
