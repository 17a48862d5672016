import Gcode.Number.Fixed
import Gcode.Proofs.Number.Fixed
import Gcode.Proofs.Number.Shortest

/-! The texts of codes, which are the numbers nearest to a whole number of tenths.
Such a text has at most one digit after its point, and it reads back to the number.
-/

namespace Gcode.Number

/-- The number nearest to a whole number of tenths, which is not negative. -/
def Binary64.IsCode (x : Binary64) : Prop :=
  x.isFinite ∧ ∃ tenths, x = Numeral.toBinary64 false ⟨tenths, -1⟩

namespace Binary64

attribute [local irreducible] unitsPerOne overflow

/-- The text of a number without a minus sign, with one zero before it perhaps. -/
theorem exists_toCode {units : Nat} (h : Representable units)
    : ∃ zeros m places, (Binary64.finite false units h).toCode
          = List.replicate zeros '0' ++ positional m places
        ∧ (⟨m, -(places : Int)⟩ : Numeral).toBinary64 false = .finite false units h
        ∧ (places : Int) ≤ if units = 0 then 0 else max 0 (-(shortest units).exponent) := by
  obtain ⟨m, places, shown, value, few⟩ := toText_finite false h
  unfold toCode
  split
  · exact ⟨1, m, places, by rw [shown]; rfl, value, few⟩
  · exact ⟨0, m, places, by rw [shown]; rfl, value, few⟩

theorem read?_zeros_positional (zeros m places : Nat)
    : Numeral.read? (List.replicate zeros '0' ++ positional m places)
      = some ⟨m, -(places : Int)⟩ := by
  induction zeros with
  | zero => exact Numeral.read?_positional m places
  | succ zeros ih => exact Numeral.read?_zero_cons ih

/-- A text of a code reads back to the number, if that has no minus sign. -/
theorem read?_toCode {units : Nat} (h : Representable units)
    : read? (Binary64.finite false units h).toCode = some (.finite false units h) := by
  obtain ⟨zeros, m, places, shown, value, _⟩ := exists_toCode h
  have start : ∃ c rest, List.replicate zeros '0' ++ positional m places = c :: rest
      ∧ (Text.isDecimalDigit c ∨ c = '.') := by
    cases zeros with
    | zero => exact positional_start m places
    | succ zeros => exact ⟨'0', _, rfl, .inl (Text.isDecimalDigit_of_isDigit rfl)⟩
  have whole := read?_append (.inl rfl) start
  rw [List.nil_append] at whole
  rw [shown, whole, read?_zeros_positional]
  exact congrArg some value

theorem compare?_ten_of_negative {units : Nat} (h : Representable units)
    : (Binary64.finite true units h).compare? ten = some .lt := by
  have positive : ∃ top : Int, ten.signedUnits? = some top ∧ 0 < top := by
    refine ⟨10 * unitsPerOne, ?_, ?_⟩
    · decide +kernel
    · decide +kernel
  obtain ⟨top, known, positive⟩ := positive
  have own : (Binary64.finite true units h).signedUnits? = some (-(units : Int)) := rfl
  have less : compare (-(units : Int)) top = .lt := Int.compare_eq_lt.2 (by omega)
  rw [compare?, own, known]
  exact congrArg some less

/-- The text of a code with a minus sign has a zero before the sign. -/
theorem toCode_negative {units : Nat} (h : Representable units)
    : ∃ rest, (Binary64.finite true units h).toCode = '0' :: '-' :: rest := by
  obtain ⟨m, places, shown, _⟩ := toText_finite true h
  exact ⟨positional m places, by rw [toCode, if_pos (compare?_ten_of_negative h), shown]; rfl⟩

/-- A sign after a zero makes a text no number. -/
theorem read?_zero_minus (rest : List Char) : read? ('0' :: '-' :: rest) = none := by
  have whole := read?_append (.inl rfl) ⟨'0', '-' :: rest, rfl, .inl (by decide)⟩
  rw [List.nil_append] at whole
  have split : splitPoint ('0' :: '-' :: rest) = (['0'], [], '-' :: rest) := by
    rfl
  rw [whole, Option.map_eq_none_iff, Numeral.read?, split]
  simp [readExponent?]

theorem readInt64?_zero_minus (rest : List Char) : readInt64? ('0' :: '-' :: rest) = none :=
  readInt64?_eq_none (c := '-') (by simp [splitSign]) rfl

/-- A number nearest to tenths has no minus sign. -/
theorem IsCode.exists_finite {x : Binary64} (h : x.IsCode)
    : ∃ tenths exact, x = .finite false (⟨tenths, -1⟩ : Numeral).nearest exact := by
  obtain ⟨finite, tenths, rfl⟩ := h
  obtain ⟨exact, same⟩ := Numeral.toBinary64_of_isFinite finite
  exact ⟨tenths, exact, same⟩

/-- The text of a number nearest to tenths, with one zero before it perhaps: digits, and a point
with one digit perhaps.
-/
theorem IsCode.exists_toCode {x : Binary64} (h : x.IsCode)
    : ∃ zeros n places, x.toCode = List.replicate zeros '0' ++ positional n places
        ∧ places ≤ 1 := by
  obtain ⟨tenths, exact, rfl⟩ := h.exists_finite
  obtain ⟨zeros, n, places, shown, _, few⟩ := Binary64.exists_toCode exact
  refine ⟨zeros, n, places, shown, ?_⟩
  split at few
  · omega
  · rename_i some
    have least := neg_one_le_exponent_shortest exact.dvd some rfl
    omega

/-- The text of a code reads back to it. -/
theorem IsCode.read?_toCode {x : Binary64} (h : x.IsCode) : read? x.toCode = some x := by
  obtain ⟨_, exact, rfl⟩ := h.exists_finite
  exact Binary64.read?_toCode exact

end Binary64
end Gcode.Number
