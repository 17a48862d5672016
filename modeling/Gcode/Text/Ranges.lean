/-! Character sets given by inclusive ranges of code points.
The tables of character properties are lists of such ranges. A list that is built by insertion is
in order, and it has the members of the ranges that went into it.
-/

namespace Gcode.Text

/-- A character belongs to a list of ranges when one of them holds its code point. -/
def inRanges (ranges : List (Nat × Nat)) (c : Char) : Bool :=
  ranges.any fun (first, last) => first ≤ c.toNat && c.toNat ≤ last

theorem inRanges_iff (ranges : List (Nat × Nat)) (c : Char)
    : inRanges ranges c ↔ ∃ range ∈ ranges, range.1 ≤ c.toNat ∧ c.toNat ≤ range.2 := by
  simp [inRanges]

/-- Ranges of code points in ascending order, none of them empty and no two of them touching. -/
def Ascending : List (Nat × Nat) → Prop
  | [] => True
  | (first, last) :: rest =>
      first ≤ last ∧ (∀ range ∈ rest, last + 1 < range.1) ∧ Ascending rest

/-- Adds a range; the ranges that it meets become one with it. -/
def insertRange (first last : Nat) : List (Nat × Nat) → List (Nat × Nat)
  | [] => [(first, last)]
  | (first', last') :: rest =>
      if last + 1 < first' then (first, last) :: (first', last') :: rest
      else if last' + 1 < first then (first', last') :: insertRange first last rest
      else insertRange (min first first') (max last last') rest

theorem le_of_mem_insertRange {low first last : Nat} {ranges : List (Nat × Nat)}
    (hf : low ≤ first) (hr : ∀ range ∈ ranges, low ≤ range.1)
    : ∀ range ∈ insertRange first last ranges, low ≤ range.1 := by
  fun_induction insertRange first last ranges with
  | case1 => simp [hf]
  | case2 => exact fun range hm => (List.mem_cons.1 hm).elim (· ▸ hf) (hr range)
  | case3 _ _ _ _ _ _ _ ih =>
      simp only [List.mem_cons, forall_eq_or_imp] at hr ⊢
      exact ⟨hr.1, ih hf hr.2⟩
  | case4 _ _ _ _ _ _ _ ih =>
      simp only [List.mem_cons, forall_eq_or_imp] at hr
      exact ih (Nat.le_min.2 ⟨hf, hr.1⟩) hr.2

theorem Ascending.insertRange {first last : Nat} {ranges : List (Nat × Nat)}
    (h : Ascending ranges) (hf : first ≤ last) : Ascending (insertRange first last ranges) := by
  fun_induction Text.insertRange first last ranges with
  | case1 => simp [Ascending, hf]
  | case2 first last first' last' rest hl =>
      refine ⟨hf, ?_, h⟩
      simp only [List.mem_cons, forall_eq_or_imp]
      exact ⟨hl, fun range hr => by have := h.1; have := h.2.1 range hr; omega⟩
  | case3 first last first' last' rest _ hl ih =>
      refine ⟨h.1, ?_, ih h.2.2 hf⟩
      exact fun range hr => le_of_mem_insertRange hl h.2.1 range hr
  | case4 first last first' last' rest _ _ ih =>
      exact ih h.2.2 (by have := h.1; omega)

theorem inRanges_insertRange {first last : Nat} {ranges : List (Nat × Nat)} {c : Char}
    (h : Ascending ranges) (hf : first ≤ last)
    : inRanges (insertRange first last ranges) c
      = (decide (first ≤ c.toNat ∧ c.toNat ≤ last) || inRanges ranges c) := by
  fun_induction insertRange first last ranges with
  | case1 => simp [inRanges]
  | case2 => simp [inRanges]
  | case3 first last first' last' rest _ _ ih =>
      have := ih h.2.2 hf
      simp only [inRanges, List.any_cons] at this ⊢
      rw [this, Bool.or_left_comm]
  | case4 first last first' last' rest _ _ ih =>
      have := h.1
      rw [ih h.2.2 (by omega)]
      simp only [inRanges, List.any_cons, ← Bool.or_assoc]
      congr 1
      rw [Bool.eq_iff_iff]
      simp only [decide_eq_true_eq, Bool.or_eq_true, Bool.and_eq_true]
      omega

end Gcode.Text
