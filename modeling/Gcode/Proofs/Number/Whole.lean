import Gcode.Proofs.Number.Code

/-! Integers of 64 bits as binary64 numbers.
An integer goes to the nearest number, which is whole again. The largest integers go to `2 ^ 63`,
which is no integer of 64 bits any more. The shortest text of a whole number is a whole number that
goes to it, and below `2 ^ 53` the number itself.
-/

namespace Gcode.Number

open Text

namespace Binary64

attribute [local irreducible] unitsPerOne overflow

-----------------------------------------------------------------------------------------
-- The nearest whole number
-----------------------------------------------------------------------------------------

/-- The whole number of 53 binary digits that is nearest to a number. -/
def nearestWhole (n : Nat) : Nat :=
  nearest (n * unitsPerOne) 1 / unitsPerOne

/-- What is nearest to a whole number is whole: either a step is a multiple of one, or the number
has no more than 53 binary digits.
-/
theorem unitsPerOne_dvd_nearest (n : Nat) : unitsPerOne ∣ nearest (n * unitsPerOne) 1 := by
  obtain ⟨exponent, he⟩ : ∃ exponent, exponent = 1074 := ⟨_, rfl⟩
  by_cases wide : exponent ≤ (n * unitsPerOne).log2 - 52
  · have step : unitsPerOne ∣ spacing (n * unitsPerOne) := by
      rw [unitsPerOne_eq he] at wide ⊢
      exact Nat.pow_dvd_pow 2 wide
    unfold nearest
    dsimp only
    rw [Nat.div_one]
    exact step.mul_left _
  · have exact : spacing (n * unitsPerOne) ∣ n * unitsPerOne := by
      refine Nat.dvd_trans ?_ (Nat.dvd_mul_left unitsPerOne n)
      rw [unitsPerOne_eq he] at wide ⊢
      exact Nat.pow_dvd_pow 2 (by omega)
    have same := nearest_mul one_pos exact
    rw [Nat.mul_one] at same
    rw [same]
    exact Nat.dvd_mul_left unitsPerOne n

theorem nearestWhole_mul (n : Nat) : nearestWhole n * unitsPerOne = nearest (n * unitsPerOne) 1 :=
  Nat.div_mul_cancel (unitsPerOne_dvd_nearest n)

theorem spacing_dvd_nearestWhole_mul (n : Nat)
    : spacing (nearestWhole n * unitsPerOne) ∣ nearestWhole n * unitsPerOne := by
  rw [nearestWhole_mul]
  exact spacing_dvd_nearest _ _

/-- A whole number that some number is nearest to is nearest to itself. -/
theorem nearestWhole_of_exact {n : Nat} (exact : spacing (n * unitsPerOne) ∣ n * unitsPerOne)
    : nearestWhole n = n := by
  have same := nearest_mul one_pos exact
  rw [Nat.mul_one, ← nearestWhole_mul] at same
  exact Nat.eq_of_mul_eq_mul_right unitsPerOne_pos same

theorem nearestWhole_mono {m n : Nat} (h : m ≤ n) : nearestWhole m ≤ nearestWhole n := by
  refine Nat.div_le_div_right (nearest_mono one_pos one_pos ?_)
  gcongr

theorem nearestWhole_zero : nearestWhole 0 = 0 :=
  nearestWhole_of_exact (by simp)

theorem nearestWhole_two_pow (exponent : Nat) : nearestWhole (2 ^ exponent) = 2 ^ exponent := by
  obtain ⟨more, hm⟩ : ∃ more, more = 1074 := ⟨_, rfl⟩
  refine nearestWhole_of_exact ?_
  rw [unitsPerOne_eq hm, ← Nat.pow_add]
  exact spacing_two_pow_dvd _

/-- Below `2 ^ 53` every whole number is a magnitude. -/
theorem nearestWhole_of_lt {n : Nat} (small : n < 2 ^ 53) : nearestWhole n = n := by
  obtain ⟨exponent, he⟩ : ∃ exponent, exponent = 1074 := ⟨_, rfl⟩
  refine nearestWhole_of_exact ?_
  rcases Nat.eq_zero_or_pos n with rfl | positive
  · simp
  · refine Nat.dvd_trans ?_ (Nat.dvd_mul_left unitsPerOne n)
    have log : (n * 2 ^ exponent).log2 < 53 + exponent := by
      rw [Nat.log2_lt (Nat.mul_pos positive (Nat.two_pow_pos _)).ne', Nat.pow_add]
      exact Nat.mul_lt_mul_of_pos_right small (Nat.two_pow_pos _)
    rw [unitsPerOne_eq he]
    exact Nat.pow_dvd_pow 2 (by omega)

theorem nearestWhole_pos {n : Nat} (positive : 0 < n) : 0 < nearestWhole n := by
  have one := nearestWhole_two_pow 0
  have least : nearestWhole (2 ^ 0) ≤ nearestWhole n := nearestWhole_mono positive
  omega

/-- The magnitudes below `2 ^ 63` are 1024 apart there, and the middle goes up. -/
theorem nearestWhole_below : nearestWhole (2 ^ 63 - 513) = 2 ^ 63 - 1024 := by
  decide +kernel

theorem nearestWhole_above : nearestWhole (2 ^ 63 - 512) = 2 ^ 63 := by
  decide +kernel

theorem nearestWhole_lt_iff {n : Nat} : nearestWhole n < 2 ^ 63 ↔ n < 2 ^ 63 - 512 := by
  constructor
  · intro small
    by_contra large
    have least := nearestWhole_mono (not_lt.1 large)
    rw [nearestWhole_above] at least
    omega
  · intro small
    have most : nearestWhole n ≤ nearestWhole (2 ^ 63 - 513) := nearestWhole_mono (by omega)
    rw [nearestWhole_below] at most
    omega

theorem nearestWhole_le {n : Nat} (h : n ≤ 2 ^ 63) : nearestWhole n ≤ 2 ^ 63 := by
  have most := nearestWhole_mono h
  rwa [nearestWhole_two_pow] at most

-----------------------------------------------------------------------------------------
-- Integers
-----------------------------------------------------------------------------------------

/-- The whole number that is nearest to an integer. -/
def nearestInt (n : Int) : Int :=
  if n < 0 then -(nearestWhole n.natAbs : Int) else nearestWhole n.natAbs

theorem natAbs_nearestInt (n : Int) : (nearestInt n).natAbs = nearestWhole n.natAbs := by
  unfold nearestInt
  split <;> omega

theorem nearestInt_neg_iff {n : Int} : nearestInt n < 0 ↔ n < 0 := by
  unfold nearestInt
  split
  · rename_i negative
    have := nearestWhole_pos (n := n.natAbs) (by omega)
    omega
  · omega

theorem representable_nearestWhole {n : Nat} (bound : n ≤ 2 ^ 63)
    : Representable (nearestWhole n * unitsPerOne) where
  dvd := spacing_dvd_nearestWhole_mul n
  lt := by
    obtain ⟨exponent, he⟩ : ∃ exponent, exponent = 1074 := ⟨_, rfl⟩
    obtain ⟨width, hw⟩ : ∃ width, width = 1024 := ⟨_, rfl⟩
    have sum : width + exponent = 2098 := by omega
    rw [overflow_eq sum, unitsPerOne_eq he, Nat.pow_add]
    refine Nat.mul_lt_mul_of_pos_right ?_ (Nat.two_pow_pos _)
    exact (nearestWhole_le bound).trans_lt (Nat.pow_lt_pow_right (by decide) (by omega))

/-- An integer of 64 bits is a finite number. -/
theorem ofInt_eq {n : Int} (bound : n.natAbs ≤ 2 ^ 63)
    : ofInt n = .finite (n < 0) (nearestWhole n.natAbs * unitsPerOne)
        (representable_nearestWhole bound) :=
  ofRatio_of_nearest _ _ (nearestWhole_mul _).symm

theorem ofInt_congr {m n : Int} (sign : m < 0 ↔ n < 0)
    (same : nearestWhole m.natAbs = nearestWhole n.natAbs) : ofInt m = ofInt n := by
  unfold ofInt
  rw [decide_eq_decide.2 sign]
  refine ofRatio_congr _ ?_
  rw [← nearestWhole_mul, ← nearestWhole_mul, same]

/-- The whole number nearest to an integer goes to the same number. -/
theorem ofInt_nearestInt (n : Int) : ofInt (nearestInt n) = ofInt n := by
  refine ofInt_congr nearestInt_neg_iff ?_
  rw [natAbs_nearestInt]
  exact nearestWhole_of_exact (spacing_dvd_nearestWhole_mul _)

/-- The text of an integer without places is the integer nearest to it. -/
theorem toFixed_ofInt_zero {n : Int} (bound : n.natAbs ≤ 2 ^ 63)
    : (ofInt n).toFixed 0 = intText (nearestInt n) := by
  have steps : decimalSteps (nearestWhole n.natAbs * unitsPerOne) 0 = nearestWhole n.natAbs := by
    unfold decimalSteps
    rw [Nat.pow_eq, Nat.pow_zero, Nat.mul_one, roundHalfEven_mul _ _ unitsPerOne_pos]
  have sign : decide (nearestInt n < 0) = decide (n < 0) := decide_eq_decide.2 nearestInt_neg_iff
  rw [ofInt_eq bound, toFixed, steps, intText, natAbs_nearestInt, sign]
  split
  · rename_i zero
    have none : ¬ n < 0 := by
      intro negative
      have := nearestWhole_pos (n := n.natAbs) (by omega)
      omega
    simp [zero, none, zeroText, signText, digits]
  · rw [positional_eq, if_pos rfl]

-----------------------------------------------------------------------------------------
-- Shortest texts
-----------------------------------------------------------------------------------------

theorem nearest_whole (n : Nat) : (⟨n, 0⟩ : Numeral).nearest = nearestWhole n * unitsPerOne := by
  rw [nearestWhole_mul]
  exact Numeral.nearest_eq _ one_pos (by simp [Numeral.units])

/-- A whole number needs no place after the point. -/
theorem exponent_shortest_nonneg {n : Nat} (positive : 0 < n)
    (exact : spacing (n * unitsPerOne) ∣ n * unitsPerOne)
    : 0 ≤ (shortest (n * unitsPerOne)).exponent := by
  have back : (⟨n, (1073 + 1 : Nat) - 1074⟩ : Numeral).nearest = n * unitsPerOne := by
    have whole := nearest_whole n
    rwa [nearestWhole_of_exact exact] at whole
  have large : 2 ^ 1070 ≤ n * unitsPerOne := by
    obtain ⟨low, hl⟩ : ∃ low, low = 1070 := ⟨_, rfl⟩
    obtain ⟨exponent, he⟩ : ∃ exponent, exponent = 1074 := ⟨_, rfl⟩
    rw [← hl, unitsPerOne_eq he]
    have power : 2 ^ low ≤ 2 ^ exponent := Nat.pow_le_pow_right two_pos (by omega)
    exact power.trans (Nat.le_mul_of_pos_left _ positive)
  have ceiling := le_decimalCeiling rfl large
  exact le_exponent_shortestFrom exact back (by omega)

/-- The whole number that the shortest text of a whole number denotes. -/
def shortestWhole (n : Nat) : Nat :=
  if n = 0 then 0
  else
    let numeral := shortest (n * unitsPerOne)
    numeral.digits * 10 ^ numeral.exponent.toNat

theorem shortestWhole_zero : shortestWhole 0 = 0 :=
  rfl

theorem toText_whole (negative : Bool) {n : Nat} (h : Representable (n * unitsPerOne))
    : (Binary64.finite negative (n * unitsPerOne) h).toText
      = signText negative ++ digits (shortestWhole n) := by
  unfold toText shortestWhole
  dsimp only
  rcases Nat.eq_zero_or_pos n with rfl | positive
  · simp [digits]
  · have some : n * unitsPerOne ≠ 0 := (Nat.mul_pos positive unitsPerOne_pos).ne'
    rw [if_neg some, if_neg positive.ne', Numeral.toText,
      if_pos (exponent_shortest_nonneg positive h.dvd), positional_eq, if_pos rfl]
    rfl

/-- The whole number in the text goes to the same magnitude. -/
theorem nearestWhole_shortestWhole {n : Nat} (exact : spacing (n * unitsPerOne) ∣ n * unitsPerOne)
    : nearestWhole (shortestWhole n) = n := by
  unfold shortestWhole
  split
  · rename_i none
    rw [nearestWhole_zero, none]
  · rename_i some
    have least := exponent_shortest_nonneg (Nat.pos_of_ne_zero some) exact
    have back := nearest_shortest exact
    rw [Numeral.nearest_eq _ one_pos (Numeral.units_of_nonneg least), ← nearestWhole_mul] at back
    exact Nat.eq_of_mul_eq_mul_right unitsPerOne_pos back

/-- A whole number below `2 ^ 53` is in its text. -/
theorem shortestWhole_of_lt {n : Nat} (small : n < 2 ^ 53) : shortestWhole n = n := by
  have exact : spacing (n * unitsPerOne) ∣ n * unitsPerOne := by
    have own := spacing_dvd_nearestWhole_mul n
    rwa [nearestWhole_of_lt small] at own
  have back := nearestWhole_shortestWhole exact
  -- a larger number would go to `2 ^ 53` at least
  have bound : shortestWhole n < 2 ^ 53 := by
    by_contra large
    have least := nearestWhole_mono (not_lt.1 large)
    rw [nearestWhole_two_pow, back] at least
    omega
  rwa [nearestWhole_of_lt bound] at back

theorem shortestWhole_two_pow : shortestWhole (2 ^ 63) = 9223372036854776000 := by
  decide +kernel

/-- The text of a number is past the integers of 64 bits, the least one among them, just where the
number is no less than `2 ^ 63`.
-/
theorem shortestWhole_le_iff {n : Nat} (exact : spacing (n * unitsPerOne) ∣ n * unitsPerOne)
    : shortestWhole n ≤ 2 ^ 63 ↔ n < 2 ^ 63 := by
  have back := nearestWhole_shortestWhole exact
  constructor
  · intro small
    have most := nearestWhole_le small
    rw [back] at most
    refine lt_of_le_of_ne most ?_
    rintro rfl
    rw [shortestWhole_two_pow] at small
    omega
  · intro small
    by_contra large
    have least := nearestWhole_mono (not_le.1 large).le
    rw [nearestWhole_two_pow, back] at least
    omega

theorem shortestWhole_lt_iff {n : Nat} (exact : spacing (n * unitsPerOne) ∣ n * unitsPerOne)
    : shortestWhole n < 2 ^ 63 ↔ n < 2 ^ 63 := by
  constructor
  · intro small
    exact (shortestWhole_le_iff exact).1 small.le
  · intro small
    refine lt_of_le_of_ne ((shortestWhole_le_iff exact).2 small) ?_
    intro top
    have back := nearestWhole_shortestWhole exact
    rw [top, nearestWhole_two_pow] at back
    omega

-----------------------------------------------------------------------------------------
-- Integers as codes
-----------------------------------------------------------------------------------------

/-- The text of a natural number as a code: a whole number that goes to the same number, with one
zero before it perhaps. Only the text of `2 ^ 63` is past the integers of 64 bits.
-/
theorem exists_toCode_ofInt {n : Nat} (bound : n ≤ 2 ^ 63)
    : ∃ zeros m, (ofInt n).toCode = List.replicate zeros '0' ++ digits m
        ∧ nearestWhole m = nearestWhole n ∧ (m < 2 ^ 63 ↔ n < 2 ^ 63 - 512) := by
  have number : ofInt n = .finite false (nearestWhole n * unitsPerOne)
      (representable_nearestWhole bound) := ofInt_eq (n := n) bound
  have exact := spacing_dvd_nearestWhole_mul n
  have again := nearestWhole_shortestWhole exact
  have small := (shortestWhole_lt_iff exact).trans nearestWhole_lt_iff
  -- said of every text, so that nothing computes with the digits
  have plain (text : List Char) : signText false ++ text = text := rfl
  have zero (text : List Char) : '0' :: text = List.replicate 1 '0' ++ text := rfl
  have none (text : List Char) : text = List.replicate 0 '0' ++ text := rfl
  have shown : (ofInt n).toText = digits (shortestWhole (nearestWhole n)) := by
    rw [number, toText_whole, plain]
  unfold toCode
  rw [shown]
  split
  · exact ⟨1, _, zero _, again, small⟩
  · exact ⟨0, _, none _, again, small⟩

/-- The whole number that is read from the text of a natural number as a code. -/
theorem exists_readInt64?_toCode {n : Nat} (bound : n ≤ 2 ^ 63)
    : ∃ m : Nat, readInt64? (ofInt n).toCode = toInt64? m
        ∧ ofInt m = ofInt n ∧ (m < 2 ^ 63 ↔ n < 2 ^ 63 - 512) := by
  obtain ⟨zeros, m, shown, again, small⟩ := exists_toCode_ofInt bound
  have all : ∀ c ∈ List.replicate zeros '0' ++ digits m, c.isDigit := by
    refine List.forall_mem_append.2 ⟨?_, fun c => isDigit_of_mem_digits⟩
    intro c member
    rw [(List.mem_replicate.1 member).2]
    rfl
  refine ⟨m, ?_, ofInt_congr (by omega) again, small⟩
  rw [shown, readInt64?_of_isDigit (by simp [digits_ne_nil]) all, ofDigits_replicate_zero,
    ofDigits_digits]

end Binary64
end Gcode.Number
