import Gcode.Proofs.Number.Whole

/-! Integers in the texts of numbers, and numbers in the texts of integers.
The shortest text of a whole number has no point in it, and the integer that it denotes goes to the
number; from `2 ^ 53` on it may be another integer than the number is. Narrowing a number to 64
bits keeps the integer that the number is.
-/

namespace Gcode.Number

namespace Binary64

attribute [local irreducible] unitsPerOne overflow

/-- The text of an integer reads as the nearest number. -/
theorem read?_intText (n : Int) : read? (intText n) = some (ofInt n) := by
  have whole : positional n.natAbs 0 = digits n.natAbs := by rw [positional_eq, if_pos rfl]
  rw [intText, ← whole, read?_append (isSign_signText _) (positional_start _ _),
    Numeral.read?_positional, Option.map_some, mem_signText, toBinary64_neg_places, Nat.pow_zero]
  rfl

-----------------------------------------------------------------------------------------
-- Integers in texts
-----------------------------------------------------------------------------------------

/-- The integer that the shortest text of an integer denotes. -/
def shortestInt (n : Int) : Int :=
  if n < 0 then -(shortestWhole n.natAbs : Int) else shortestWhole n.natAbs

theorem shortestInt_neg_iff {n : Int}
    (exact : spacing (n.natAbs * unitsPerOne) ∣ n.natAbs * unitsPerOne)
    : shortestInt n < 0 ↔ n < 0 := by
  have back := nearestWhole_shortestWhole exact
  unfold shortestInt
  split
  · rename_i negative
    have some : shortestWhole n.natAbs ≠ 0 := by
      intro zero
      rw [zero, nearestWhole_zero] at back
      omega
    omega
  · omega

/-- A number that is an integer has a whole magnitude. -/
theorem exists_whole_of_toInt? {x : Binary64} {n : Int} (whole : x.toInt? = some n)
    : ∃ negative h, x = .finite negative (n.natAbs * unitsPerOne) h
        ∧ n = if negative then -(n.natAbs : Int) else n.natAbs := by
  cases x with
  | finite negative units h =>
      unfold toInt? at whole
      dsimp only at whole
      split at whole
      · rename_i exact
        obtain ⟨count, rfl⟩ := Nat.dvd_of_mod_eq_zero exact
        rw [Nat.mul_div_cancel_left _ unitsPerOne_pos] at whole
        obtain rfl := Option.some.inj whole
        have magnitude : (if negative then -(count : Int) else count).natAbs = count := by
          cases negative <;> simp
        simp only [magnitude, Nat.mul_comm unitsPerOne] at h ⊢
        exact ⟨negative, h, rfl, rfl⟩
      · contradiction
  | _ => contradiction

/-- Only the sign of a zero may differ from that of the integer. -/
theorem sign_iff {negative : Bool} {n : Int}
    (sign : n = if negative then -(n.natAbs : Int) else n.natAbs) (some : n ≠ 0)
    : negative ↔ n < 0 := by
  cases negative with
  | false =>
      have sign : n = n.natAbs := sign
      exact ⟨nofun, by omega⟩
  | true =>
      have sign : n = -n.natAbs := sign
      exact ⟨fun _ => by omega, fun _ => rfl⟩

/-- The text of a number that is an integer denotes one. -/
theorem readInt?_toText {x : Binary64} {n : Int} (whole : x.toInt? = some n)
    : readInt? x.toText = some (shortestInt n) := by
  obtain ⟨negative, h, rfl, sign⟩ := exists_whole_of_toInt? whole
  have minus : '-' ∈ signText negative ↔ negative := by
    cases negative <;> simp [signText]
  rw [toText_whole, readInt?_append (isSign_signText negative) (digits_ne_nil _)
    (fun c => isDigit_of_mem_digits), ofDigits_digits, shortestInt]
  by_cases zero : n = 0
  · simp [zero, shortestWhole_zero]
  · simp only [minus, sign_iff sign zero]

/-- A numeral without places denotes a whole number. -/
theorem nearestWhole_of_toBinary64 {n units : Nat} {negative : Bool} {h : Representable units}
    (value : (⟨n, -((0 : Nat) : Int)⟩ : Numeral).toBinary64 negative = .finite negative units h)
    : nearestWhole n * unitsPerOne = units := by
  obtain ⟨_, again⟩ := Numeral.toBinary64_of_isFinite (by rw [value]; rfl)
  have same := (Binary64.finite.inj (again.symm.trans value)).2
  have zero : (-((0 : Nat) : Int)) = 0 := rfl
  rwa [zero, nearest_whole] at same

/-- The text of any other number denotes no integer: there is a point in it, or a letter. -/
theorem readInt?_toText_of_none {x : Binary64} (part : x.toInt? = none)
    : readInt? x.toText = none := by
  cases x with
  | nan => rfl
  | infinity negative => cases negative <;> rfl
  | finite negative units h =>
      obtain ⟨m, places, shown, value, _⟩ := toText_finite negative h
      have some : places ≠ 0 := by
        rintro rfl
        simp [toInt?, ← nearestWhole_of_toBinary64 value] at part
      refine readInt?_eq_none (c := '.') ?_ rfl
      rw [shown, splitSign_append (isSign_signText negative)
        (stops_isSignChar_of_start (positional_start m places))]
      exact point_mem_positional m some

section Integers

variable {x : Binary64} {n : Int}

theorem spacing_dvd_of_toInt? (whole : x.toInt? = some n)
    : spacing (n.natAbs * unitsPerOne) ∣ n.natAbs * unitsPerOne := by
  obtain ⟨_, h, _, _⟩ := exists_whole_of_toInt? whole
  exact h.dvd

theorem natAbs_shortestInt (n : Int) : (shortestInt n).natAbs = shortestWhole n.natAbs := by
  unfold shortestInt
  split <;> omega

theorem shortestInt_of_lt (small : n.natAbs < 2 ^ 53) : shortestInt n = n := by
  unfold shortestInt
  rw [shortestWhole_of_lt small]
  split <;> omega

/-- The integer in the text is the same number. -/
theorem ofInt_shortestInt (whole : x.toInt? = some n) : ofInt (shortestInt n) = ofInt n := by
  have exact := spacing_dvd_of_toInt? whole
  refine ofInt_congr (shortestInt_neg_iff exact) ?_
  rw [natAbs_shortestInt, nearestWhole_shortestWhole exact, nearestWhole_of_exact exact]

/-- Of the integers of 64 bits only the least one has a text that is past them. -/
theorem isSome_toInt64?_shortestInt (whole : x.toInt? = some n)
    : (toInt64? (shortestInt n)).isSome ↔ n.natAbs < 2 ^ 63 := by
  have exact := spacing_dvd_of_toInt? whole
  have least := shortestWhole_le_iff exact
  have most := shortestWhole_lt_iff exact
  rw [toInt64?_eq]
  unfold shortestInt
  split <;> split <;> simp <;> omega

-----------------------------------------------------------------------------------------
-- Narrowing to 64 bits
-----------------------------------------------------------------------------------------

theorem signedUnits?_of_toInt? (whole : x.toInt? = some n)
    : x.signedUnits? = some (n * unitsPerOne) := by
  obtain ⟨negative, h, rfl, sign⟩ := exists_whole_of_toInt? whole
  cases negative with
  | false =>
      have sign : n = n.natAbs := sign
      rw [signedUnits?, sign]
      simp
  | true =>
      have sign : n = -n.natAbs := sign
      rw [signedUnits?, sign]
      simp

theorem nearestInt_of_toInt? (whole : x.toInt? = some n) : nearestInt n = n := by
  unfold nearestInt
  rw [nearestWhole_of_exact (spacing_dvd_of_toInt? whole)]
  split <;> omega

theorem signedUnits?_ofInt (bound : n.natAbs ≤ 2 ^ 63)
    : (ofInt n).signedUnits? = some (nearestInt n * unitsPerOne) := by
  rw [ofInt_eq bound, signedUnits?, nearestInt]
  by_cases negative : n < 0 <;> simp [negative]

end Integers

/-- Whether a number has nothing after its point. -/
def isWhole : Binary64 → Bool
  | .finite _ units _ => units % unitsPerOne == 0
  | _ => false

/-- A whole number between the ends of the 64-bit range, which are compared as real numbers, cut
off to an integer.
-/
def narrow? (x : Binary64) : Option Int64 :=
  let least := ofInt Int64.minValue.toInt
  let largest := ofInt Int64.maxValue.toInt
  if x.isWhole ∧ (least.compare? x).any (·.isLE) ∧ x.compare? largest = some .lt then
    some x.truncate
  else none

theorem isWhole_iff (x : Binary64) : x.isWhole ↔ x.toInt?.isSome := by
  cases x with
  | finite negative units h =>
      unfold isWhole toInt?
      split <;> simp_all
  | _ => simp [isWhole, toInt?]

/-- Whole numbers are compared as integers. -/
theorem compare?_of_whole {x y : Binary64} {m n : Int}
    (left : x.signedUnits? = some (m * unitsPerOne))
    (right : y.signedUnits? = some (n * unitsPerOne)) : x.compare? y = some (compare m n) := by
  have one : (0 : Int) < unitsPerOne := by exact_mod_cast unitsPerOne_pos
  have same : compare (m * unitsPerOne) (n * unitsPerOne) = compare m n := by
    simp only [compare, compareOfLessAndEq, Int.mul_lt_mul_right one, mul_left_inj' one.ne']
  rw [compare?, left, right, ← same]
  rfl

theorem nearestInt_least : nearestInt Int64.minValue.toInt = -2 ^ 63 := by
  decide +kernel

/-- The largest integer of 64 bits is no binary64 number. -/
theorem nearestInt_largest : nearestInt Int64.maxValue.toInt = 2 ^ 63 := by
  decide +kernel

/-- Comparing with the ends of the range as real numbers lets the integers of 64 bits through and
no others: the larger end goes to `2 ^ 63`, and only what is less is let through.
-/
theorem narrow?_eq (x : Binary64) : x.narrow? = x.toInt?.bind toInt64? := by
  cases whole : x.toInt? with
  | none =>
      have part : ¬ x.isWhole := by simp [isWhole_iff, whole]
      rw [narrow?, if_neg fun given => part given.1]
      rfl
  | some n =>
      have own := signedUnits?_of_toInt? whole
      have low := signedUnits?_ofInt (n := Int64.minValue.toInt) (by decide +kernel)
      have high := signedUnits?_ofInt (n := Int64.maxValue.toInt) (by decide +kernel)
      have isWhole : x.isWhole := by simp [isWhole_iff, whole]
      have cut : x.truncate = Int64.ofIntClamp n := by
        have one : (unitsPerOne : Int) ≠ 0 := by exact_mod_cast unitsPerOne_pos.ne'
        rw [truncate, own, Option.getD_some, Int.mul_tdiv_cancel _ one]
      have range : ((ofInt Int64.minValue.toInt).compare? x).any (·.isLE)
          ∧ x.compare? (ofInt Int64.maxValue.toInt) = some .lt ↔ -2 ^ 63 ≤ n ∧ n < 2 ^ 63 := by
        rw [compare?_of_whole low own, compare?_of_whole own high, nearestInt_least,
          nearestInt_largest]
        simp [Std.isLE_compare, Int.compare_eq_lt]
      unfold narrow?
      dsimp only
      rw [Option.bind_some, toInt64?_eq]
      by_cases within : -2 ^ 63 ≤ n ∧ n < 2 ^ 63
      · have same : Int64.ofIntClamp n = Int64.ofInt n := by
          rw [← Int64.toInt_inj, Int64.toInt_ofInt_of_le within.1 within.2]
          refine Int64.toInt_ofIntClamp ?_ ?_
          · rw [Int64.toInt_minValue]
            exact within.1
          · rw [Int64.toInt_maxValue]
            exact Int.le_sub_one_of_lt within.2
        rw [if_pos ⟨isWhole, range.2 within⟩, if_pos within, cut, same]
      · rw [if_neg fun given => within (range.1 given.2), if_neg within]

end Binary64
end Gcode.Number
