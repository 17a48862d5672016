import Mathlib.Data.List.TakeWhile

/-! Runs at the start of a text: what `takeWhile` and `dropWhile` do to a run of characters of
one kind and the text after it.
-/

namespace Gcode.Text

variable {p : Char → Bool} {run rest text : List Char}

/-- A text that does not start with a character of the kind. -/
def Stops (p : Char → Bool) (text : List Char) : Prop :=
  ∀ c ∈ text.head?, p c = false

theorem stops_nil : Stops p [] := by
  simp [Stops]

@[simp] theorem stops_cons {c : Char} : Stops p (c :: text) ↔ p c = false := by
  simp [Stops]

theorem stops_dropWhile (p : Char → Bool) (text : List Char) : Stops p (text.dropWhile p) := by
  induction text with
  | nil => exact stops_nil
  | cons c text ih =>
      rw [List.dropWhile_cons]
      split
      · exact ih
      · rename_i h
        exact stops_cons.2 (by simpa using h)

theorem takeWhile_of_stops (h : Stops p text) : text.takeWhile p = [] := by
  cases text with
  | nil => rfl
  | cons c text => simp [stops_cons.1 h]

theorem dropWhile_of_stops (h : Stops p text) : text.dropWhile p = text := by
  cases text with
  | nil => rfl
  | cons c text => simp [stops_cons.1 h]

theorem takeWhile_run (all : ∀ c ∈ run, p c) (h : Stops p rest)
    : (run ++ rest).takeWhile p = run := by
  rw [List.takeWhile_append_of_pos all, takeWhile_of_stops h, List.append_nil]

theorem dropWhile_run (all : ∀ c ∈ run, p c) (h : Stops p rest)
    : (run ++ rest).dropWhile p = rest := by
  rw [List.dropWhile_append_of_pos all, dropWhile_of_stops h]

theorem takeWhile_all (all : ∀ c ∈ run, p c) : run.takeWhile p = run :=
  List.takeWhile_eq_self_iff.2 all

theorem dropWhile_all (all : ∀ c ∈ run, p c) : run.dropWhile p = [] :=
  List.dropWhile_eq_nil_iff.2 all

theorem of_mem_takeWhile {c : Char} (member : c ∈ text.takeWhile p) : p c :=
  List.mem_takeWhile_imp member

end Gcode.Text
