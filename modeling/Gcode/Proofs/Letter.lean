import Gcode.Letter
import Gcode.Text.Blank
import Mathlib.Tactic.IntervalCases

/-! The alphabet, and the two characters that write a letter. -/

namespace Gcode.Letter

/-- Letters are the characters from `A` to `Z`. -/
theorem toNat_bounds (letter : Letter) : 65 ≤ letter.char.toNat ∧ letter.char.toNat ≤ 90 := by
  obtain ⟨low, high⟩ := of_decide_eq_true letter.isUpper
  exact ⟨UInt32.le_iff_toNat_le.1 low, UInt32.le_iff_toNat_le.1 high⟩

theorem char_inj {first second : Letter} : first.char = second.char ↔ first = second := by
  cases first
  cases second
  simp

def alphabet : List Char :=
  ['A', 'B', 'C', 'D', 'E', 'F', 'G', 'H', 'I', 'J', 'K', 'L', 'M', 'N', 'O', 'P', 'Q', 'R', 'S',
    'T', 'U', 'V', 'W', 'X', 'Y', 'Z']

theorem mem_alphabet (letter : Letter) : letter.char ∈ alphabet := by
  obtain ⟨low, high⟩ := letter.toNat_bounds
  obtain ⟨n, hn⟩ : ∃ n, n = letter.char.toNat := ⟨_, rfl⟩
  have same : letter.char = Char.ofNat n := by rw [hn, Char.ofNat_toNat]
  rw [← hn] at low high
  rw [same]
  clear same hn
  interval_cases n <;> decide

/-- A property of all letters is shown letter by letter. -/
theorem forall_of_alphabet {P : Letter → Prop} (h : ∀ c ∈ alphabet, ∀ upper, P ⟨c, upper⟩)
    (letter : Letter) : P letter :=
  h letter.char letter.mem_alphabet letter.isUpper

/-- What can be computed for the characters of the alphabet holds of all letters. -/
theorem all_of_alphabet (letter : Letter) {p : Char → Bool} (h : alphabet.all p = true)
    : p letter.char = true :=
  List.all_eq_true.1 h letter.char letter.mem_alphabet

theorem ofChar?_eq_some {c : Char} {letter : Letter}
    : ofChar? c = some letter ↔ c.toUpper = letter.char := by
  obtain ⟨upper, isUpper⟩ := letter
  unfold ofChar?
  constructor
  · intro h
    split at h
    · exact congrArg Letter.char (Option.some.inj h)
    · contradiction
  · rintro rfl
    rw [dif_pos isUpper]

/-- A small letter is the lower case of its upper case. -/
theorem toLower_toUpper {c : Char} (small : 97 ≤ c.toNat ∧ c.toNat ≤ 122)
    : c.toUpper.toLower = c := by
  obtain ⟨low, high⟩ := small
  obtain ⟨n, hn⟩ : ∃ n, n = c.toNat := ⟨_, rfl⟩
  have same : c = Char.ofNat n := by rw [hn, Char.ofNat_toNat]
  rw [← hn] at low high
  rw [same]
  clear same hn
  interval_cases n <;> decide

/-- A small letter has an upper case. -/
theorem isUpper_toUpper {c : Char} (small : 97 ≤ c.toNat ∧ c.toNat ≤ 122) : c.toUpper.isUpper := by
  obtain ⟨low, high⟩ := small
  obtain ⟨n, hn⟩ : ∃ n, n = c.toNat := ⟨_, rfl⟩
  have same : c = Char.ofNat n := by rw [hn, Char.ofNat_toNat]
  rw [← hn] at low high
  rw [same]
  clear same hn
  interval_cases n <;> decide

theorem toUpper_of_not_small {c : Char} (other : ¬ (97 ≤ c.toNat ∧ c.toNat ≤ 122))
    : c.toUpper = c := by
  unfold Char.toUpper
  rw [dif_neg]
  intro given
  obtain ⟨low, high⟩ := given
  rw [UInt32.le_iff_toNat_le] at low high
  exact other ⟨low, high⟩

theorem toUpper_char (letter : Letter) : letter.char.toUpper = letter.char := by
  have bounds := letter.toNat_bounds
  exact toUpper_of_not_small (by omega)

theorem toUpper_toLower_char (letter : Letter) : letter.char.toLower.toUpper = letter.char := by
  have all := letter.all_of_alphabet (p := fun c => c.toLower.toUpper == c) rfl
  exact beq_iff_eq.1 all

/-- Exactly the letters of ASCII write a letter. -/
theorem isAlpha_iff {c : Char} : c.isAlpha ↔ ∃ letter, ofChar? c = some letter := by
  have named : (∃ letter, ofChar? c = some letter) ↔ c.toUpper.isUpper := by
    unfold ofChar?
    split <;> simp_all
  have either : c.isAlpha ↔ c.isUpper ∨ c.isLower := Bool.or_eq_true_iff
  have small : c.isLower ↔ 97 ≤ c.toNat ∧ c.toNat ≤ 122 :=
    Bool.and_eq_true_iff.trans <| and_congr
      (decide_eq_true_iff.trans UInt32.le_iff_toNat_le)
      (decide_eq_true_iff.trans UInt32.le_iff_toNat_le)
  rw [named, either]
  by_cases lower : 97 ≤ c.toNat ∧ c.toNat ≤ 122
  · exact iff_of_true (.inr (small.2 lower)) (isUpper_toUpper lower)
  · rw [toUpper_of_not_small lower, or_iff_left fun given => lower (small.1 given)]

/-- A letter is written by itself and by its lower case, and by no other character. -/
theorem ofChar?_eq_some_iff {c : Char} {letter : Letter}
    : ofChar? c = some letter ↔ c = letter.char ∨ c = letter.char.toLower := by
  rw [ofChar?_eq_some]
  constructor
  · intro same
    by_cases small : 97 ≤ c.toNat ∧ c.toNat ≤ 122
    · rw [← same, toLower_toUpper small]
      exact .inr rfl
    · exact .inl ((toUpper_of_not_small small).symm.trans same)
  · intro given
    rcases given with rfl | rfl
    · exact letter.toUpper_char
    · exact letter.toUpper_toLower_char

/-- What can be computed for both cases of the alphabet holds of the characters that write a
letter.
-/
theorem all_of_mark {c : Char} {letter : Letter} (mark : c = letter.char ∨ c = letter.char.toLower)
    {p : Char → Bool} (h : (alphabet.all fun c => p c && p c.toLower) = true) : p c = true := by
  have both := letter.all_of_alphabet h
  rw [Bool.and_eq_true] at both
  rcases mark with rfl | rfl
  · exact both.1
  · exact both.2

/-- What can be computed to be the same for both cases of the alphabet does not depend on case. -/
theorem apply_toUpper {p : Char → Bool} (same : (alphabet.all fun c => p c.toLower == p c) = true)
    (c : Char) : p c.toUpper = p c := by
  by_cases small : 97 ≤ c.toNat ∧ c.toNat ≤ 122
  · have both := (⟨c.toUpper, isUpper_toUpper small⟩ : Letter).all_of_alphabet same
    rw [beq_iff_eq, toLower_toUpper small] at both
    exact both.symm
  · rw [toUpper_of_not_small small]

theorem mem_all (letter : Letter) : letter ∈ all :=
  List.mem_filterMap.2 ⟨letter.char, letter.mem_alphabet, ofChar?_eq_some.2 letter.toUpper_char⟩

theorem isBlank_char (letter : Letter) : Text.isBlank letter.char = false := by
  have all := letter.all_of_alphabet (p := fun c => !Text.isBlank c) rfl
  simpa using all

end Gcode.Letter
