import Gcode.Proofs.Letter
import Gcode.Proofs.Text.Blank

/-! Texts that differ in the case of their letters and in the shape of their runs of blanks.
The cases of a letter are its two cases in ASCII. A run of blanks between other characters never
becomes empty; blanks at the end of a text may. Putting the blanks of a text in order gives such a
text, the blanks at its start apart.
-/

namespace Gcode.Text

theorem isBlank_toUpper (c : Char) : isBlank c.toUpper = isBlank c :=
  Letter.apply_toUpper rfl c

/-- The texts have the same characters up to case, and blanks at the same places between them. -/
inductive Respelled : List Char → List Char → Prop where
  | blanks {left right : List Char} (hl : ∀ c ∈ left, isBlank c) (hr : ∀ c ∈ right, isBlank c)
    : Respelled left right
  | between {run run' left right : List Char} (hl : ∀ c ∈ run, isBlank c)
    (hr : ∀ c ∈ run', isBlank c) (some : run ≠ []) (some' : run' ≠ [])
    (rest : Respelled left right) : Respelled (run ++ left) (run' ++ right)
  | solid {c d : Char} {left right : List Char} (solid : isBlank c = false)
    (same : c.toUpper = d.toUpper) (rest : Respelled left right)
    : Respelled (c :: left) (d :: right)

variable {c d : Char} {text left right : List Char}

theorem isBlank_congr (same : c.toUpper = d.toUpper) : isBlank c = isBlank d := by
  rw [← isBlank_toUpper c, same, isBlank_toUpper]

theorem trimStart_toUpper (text : List Char)
    : trimStart (text.map Char.toUpper) = (trimStart text).map Char.toUpper := by
  rw [trimStart, List.dropWhile_map, trimStart]
  congr 2
  funext c
  exact isBlank_toUpper c

/-- Without the blanks at their starts, the texts end or start with characters that are the same up
to case.
-/
theorem Respelled.trimStart_cases (h : Respelled left right)
    : (trimStart left = [] ∧ trimStart right = [])
      ∨ ∃ c d rest rest', trimStart left = c :: rest ∧ trimStart right = d :: rest'
        ∧ isBlank c = false ∧ c.toUpper = d.toUpper ∧ Respelled rest rest' := by
  induction h with
  | blanks hl hr => exact .inl ⟨dropWhile_all hl, dropWhile_all hr⟩
  | between hl hr _ _ _ ih =>
      rwa [trimStart, trimStart, List.dropWhile_append_of_pos hl, List.dropWhile_append_of_pos hr]
  | @solid c d left right solid same rest _ =>
      have solid' : isBlank d = false := (isBlank_congr same).symm.trans solid
      exact .inr ⟨c, d, left, right, dropWhile_of_stops (stops_cons.2 solid),
        dropWhile_of_stops (stops_cons.2 solid'), solid, same, rest⟩

theorem Respelled.trimStart (h : Respelled left right)
    : Respelled (trimStart left) (trimStart right) := by
  rcases h.trimStart_cases with
    ⟨nothing, nothing'⟩ | ⟨c, d, rest, rest', start, start', solid, same, more⟩
  · rw [nothing, nothing']
    exact .blanks (List.forall_mem_nil _) (List.forall_mem_nil _)
  · rw [start, start']
    exact .solid solid same more

/-- Texts that are the same up to case. -/
theorem respelled_of_toUpper (same : left.map Char.toUpper = right.map Char.toUpper)
    : Respelled left right := by
  induction left generalizing right with
  | nil =>
      obtain rfl := List.map_eq_nil_iff.1 same.symm
      exact .blanks (List.forall_mem_nil _) (List.forall_mem_nil _)
  | cons c left ih =>
      cases right with
      | nil => contradiction
      | cons d right =>
          obtain ⟨first, others⟩ := List.cons.inj same
          cases blank : isBlank c with
          | false => exact .solid blank first (ih others)
          | true =>
              have blank' : isBlank d = true := (isBlank_congr first).symm.trans blank
              exact @Respelled.between [c] [d] left right (List.forall_mem_singleton.2 blank)
                (List.forall_mem_singleton.2 blank') (by simp) (by simp) (ih others)

/-- Putting the blanks of a text in order, character by character: a run of blanks between fields
becomes a space, and nothing comes of one at the end.
-/
theorem respelled_normalize (text : List Char) : Respelled (trimStart text) (normalize text) := by
  induction text using fields_induction with
  | nil => exact .blanks (List.forall_mem_nil _) (List.forall_mem_nil _)
  | blank c text blank ih =>
      rw [trimStart, List.dropWhile_cons_of_pos blank, normalize, fields_of_blank blank]
      exact ih
  | ends c text solid stop ih =>
      have whole : trimStart (c :: text) = c :: text := dropWhile_of_stops (stops_cons.2 solid)
      rw [normalize, fields_of_end solid stop, intercalate_cons, ← normalize, whole]
      refine .solid solid rfl ?_
      split
      · rename_i none
        have blanks : ∀ c ∈ text, isBlank c := by
          rw [← normalize_eq_nil_iff, normalize, none]
          rfl
        exact .blanks blanks (List.forall_mem_nil _)
      · rename_i more
        have start : text.takeWhile isBlank ≠ [] := by
          cases text with
          | nil => exact absurd rfl more
          | cons d text =>
              have blank : isBlank d = true := by simpa using stop
              simp [blank]
        have parts : text.takeWhile isBlank ++ trimStart text = text :=
          List.takeWhile_append_dropWhile
        have spelled : Respelled (text.takeWhile isBlank ++ trimStart text)
            ([' '] ++ normalize text) :=
          .between (fun _ => List.mem_takeWhile_imp) (List.forall_mem_singleton.2 rfl) start
            (by simp) ih
        rwa [parts] at spelled
  | inside c d text solid next ih =>
      have first : trimStart (c :: d :: text) = c :: d :: text :=
        dropWhile_of_stops (stops_cons.2 solid)
      have start : trimStart (d :: text) = d :: text := dropWhile_of_stops (stops_cons.2 next)
      obtain ⟨field, more, found, same⟩ := fields_before_solid text solid next
      rw [normalize, start, found, intercalate_cons] at ih
      rw [normalize, first, same, intercalate_cons, List.cons_append]
      exact .solid solid rfl ih

end Gcode.Text
