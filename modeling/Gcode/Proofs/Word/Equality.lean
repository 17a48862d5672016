import Gcode.Word.Order

/-! Equality of words.
It is symmetric and transitive, and a word is equal to itself unless its value is NaN.
-/

namespace Gcode

open Number

section Numbers

variable {x y z : Binary64}

/-- Numbers are equal when they are the same signed number of units. -/
theorem Number.Binary64.eq_iff
    : x.eq y ↔ ∃ units, x.signedUnits? = some units ∧ y.signedUnits? = some units := by
  unfold Binary64.eq Binary64.compare?
  cases x.signedUnits? with
  | none => simp
  | some m =>
      cases y.signedUnits? with
      | none => simp
      | some n =>
          change (compare m n == .eq) = true ↔ ∃ units, some m = some units ∧ some n = some units
          rw [beq_iff_eq, Std.compare_eq_iff_eq]
          constructor
          · rintro rfl
            exact ⟨m, rfl, rfl⟩
          · intro given
            obtain ⟨units, left, right⟩ := given
            exact Option.some.inj (left.trans right.symm)

theorem Number.Binary64.exists_signedUnits (finite : x.isFinite)
    : ∃ units, x.signedUnits? = some units := by
  cases x with
  | finite negative units h => exact ⟨_, rfl⟩
  | _ => contradiction

theorem Number.Binary64.eq_self (finite : x.isFinite) : x.eq x := by
  obtain ⟨units, known⟩ := exists_signedUnits finite
  exact Binary64.eq_iff.2 ⟨units, known, known⟩

theorem Number.Binary64.eq_symm (h : x.eq y) : y.eq x := by
  obtain ⟨units, hx, hy⟩ := Binary64.eq_iff.1 h
  exact Binary64.eq_iff.2 ⟨units, hy, hx⟩

theorem Number.Binary64.eq_trans (h : x.eq y) (h' : y.eq z) : x.eq z := by
  obtain ⟨units, hx, hy⟩ := Binary64.eq_iff.1 h
  obtain ⟨same, hy', hz⟩ := Binary64.eq_iff.1 h'
  obtain rfl : units = same := Option.some.inj (hy.symm.trans hy')
  exact Binary64.eq_iff.2 ⟨units, hx, hz⟩

theorem Number.Binary64.magnitude_and_sign_of_signed {negative negative' : Bool} {m n : Nat}
    (same : (if negative then -(m : Int) else m) = if negative' then -(n : Int) else n)
    : m = n ∧ (m = 0 ∨ negative = negative') := by
  cases negative <;> cases negative' <;> simp at same ⊢ <;> omega

/-- Equal numbers are the same, unless they are zeros. -/
theorem Number.Binary64.eq_or_zeros_of_eq (h : x.eq y)
    : x = y
      ∨ ∃ negative negative' zero zero', x = .finite negative 0 zero ∧ y = .finite negative' 0 zero' := by
  obtain ⟨units, hx, hy⟩ := Binary64.eq_iff.1 h
  have same := hx.trans hy.symm
  cases x with
  | nan => cases hx
  | infinity negative =>
      cases y with
      | nan => cases hy
      | infinity negative' =>
          obtain ⟨_, zero | rfl⟩ := magnitude_and_sign_of_signed (Option.some.inj same)
          · exact absurd zero (Nat.ne_of_gt Binary64.representable_zero.lt)
          · exact .inl rfl
      | finite negative' magnitude' representable' =>
          obtain ⟨equal, _⟩ := magnitude_and_sign_of_signed (Option.some.inj same)
          exact absurd equal (Nat.ne_of_gt representable'.lt)
  | finite negative magnitude representable =>
      cases y with
      | nan => cases hy
      | infinity negative' =>
          obtain ⟨equal, _⟩ := magnitude_and_sign_of_signed (Option.some.inj same)
          exact absurd equal (Nat.ne_of_lt representable.lt)
      | finite negative' magnitude' representable' =>
          obtain ⟨rfl, rfl | rfl⟩ := magnitude_and_sign_of_signed (Option.some.inj same)
          · exact .inr ⟨negative, negative', representable, representable', rfl, rfl⟩
          · exact .inl rfl

end Numbers

section Values

variable {u v w : Value}

theorem Value.eq_symm (h : Value.eq v w) : Value.eq w v := by
  cases v <;> cases w <;> simp only [Value.eq, beq_iff_eq, Bool.false_eq_true] at h ⊢
  · exact h.symm
  · exact Binary64.eq_symm h
  · exact h.symm

theorem Value.eq_trans (h : Value.eq u v) (h' : Value.eq v w) : Value.eq u w := by
  cases u <;> cases v <;> simp only [Value.eq, beq_iff_eq, Bool.false_eq_true] at h
  · exact h ▸ h'
  · cases w <;> simp only [Value.eq, Bool.false_eq_true] at h' ⊢
    exact Binary64.eq_trans h h'
  · exact h ▸ h'

end Values

namespace Word

variable {first second third : Word}

theorem eq_iff
    : Word.eq first second
      ↔ first.letter = second.letter ∧ Value.eq first.value second.value := by
  simp [Word.eq]

theorem eq_symm (h : Word.eq first second) : Word.eq second first := by
  obtain ⟨letter, value⟩ := eq_iff.1 h
  exact eq_iff.2 ⟨letter.symm, Value.eq_symm value⟩

theorem eq_trans (h : Word.eq first second) (h' : Word.eq second third)
    : Word.eq first third := by
  obtain ⟨letter, value⟩ := eq_iff.1 h
  obtain ⟨letter', value'⟩ := eq_iff.1 h'
  exact eq_iff.2 ⟨letter.trans letter', Value.eq_trans value value'⟩

/-- Equal words have one digest, so whatever looks words up by their digests finds them. -/
theorem digest_eq_of_eq (h : Word.eq first second) : first.digest = second.digest := by
  obtain ⟨letter, value⟩ := eq_iff.1 h
  unfold digest
  rw [letter]
  congr 1
  cases hv : first.value <;> cases hw : second.value <;>
    simp only [hv, hw, Value.eq, beq_iff_eq, Bool.false_eq_true] at value
  · rw [value]
  · rcases Binary64.eq_or_zeros_of_eq value with rfl | ⟨_, _, _, _, rfl, rfl⟩ <;> rfl
  · rw [value]

end Word

end Gcode
