import Gcode.Text.Lines

/-! The lines of a text.
A text falls apart at each line feed in it, and lines that are written with a line feed after each
are read again as they were, but for the carriage returns at their ends.
-/

namespace Gcode.Text

variable {c : Char} {line text rest : List Char}

/-- A line feed ends a line, also after a carriage return. -/
theorem lines_of_return (text : List Char) : lines ('\r' :: '\n' :: text) = lines ('\n' :: text) := by
  rw [lines, lines]

/-- A character that does not end a line starts the first one. -/
theorem lines_cons (feed : c ≠ '\n') (after : c = '\r' → text.head? ≠ some '\n')
    : lines (c :: text) = (c :: (lines text).headD []) :: (lines text).tail := by
  rw [lines.eq_def]
  split
  · contradiction
  · rename_i h
    exact absurd (List.cons.inj h).1 feed
  · rename_i h
    obtain ⟨rfl, rfl⟩ := List.cons.inj h
    simp at after
  · rename_i h
    obtain ⟨rfl, rfl⟩ := List.cons.inj h
    cases text with
    | nil => rfl
    | cons d text => cases lines (d :: text) <;> rfl

/-- Induction on a text, as its lines are taken: what comes first is a line feed, a carriage
return before one, or a character that is in the same line as what comes next.
-/
@[elab_as_elim] theorem lines_induction {P : List Char → Prop} (nil : P [])
    (feed : ∀ text, P text → P ('\n' :: text))
    (carriage : ∀ text, P ('\n' :: text) → P ('\r' :: '\n' :: text))
    (inside : ∀ c text, c ≠ '\n' → (c = '\r' → text.head? ≠ some '\n') → P text → P (c :: text))
    (text : List Char) : P text := by
  induction text with
  | nil => exact nil
  | cons c text ih =>
      by_cases isFeed : c = '\n'
      · exact isFeed ▸ feed text ih
      · by_cases ends : c = '\r' ∧ text.head? = some '\n'
        · obtain ⟨rfl, next⟩ := ends
          obtain ⟨rest, rfl⟩ := List.head?_eq_some_iff.1 next
          exact carriage rest ih
        · exact inside c text isFeed (fun same next => ends ⟨same, next⟩) ih

theorem newline_not_mem_lines (member : line ∈ lines text) : '\n' ∉ line := by
  induction text using lines_induction generalizing line with
  | nil => contradiction
  | feed text ih =>
      rw [lines] at member
      rcases List.mem_cons.1 member with rfl | member
      · simp
      · exact ih member
  | carriage text ih => exact ih (by rwa [lines_of_return] at member)
  | inside c text feed after ih =>
      rw [lines_cons feed after] at member
      rcases List.mem_cons.1 member with rfl | member
      · have first : '\n' ∉ (lines text).headD [] := by
          cases found : lines text with
          | nil => simp
          | cons first more => exact ih (by simp [found])
        exact fun inside => (List.mem_cons.1 inside).elim (fun same => feed same.symm) first
      · exact ih (List.mem_of_mem_tail member)

theorem lines_ne_nil (some : text ≠ []) : lines text ≠ [] := by
  induction text using lines_induction with
  | nil => contradiction
  | feed text => simp [lines]
  | carriage text => simp [lines]
  | inside c text feed after => simp [lines_cons feed after]

/-- A character starts the first line also where a line feed comes after the text behind it, but
for a carriage return right before that line feed.
-/
theorem lines_cons_append (feed : c ≠ '\n') (after : c = '\r' → text.head? ≠ some '\n')
    (goesOn : ¬ (c = '\r' ∧ text = [])) (rest : List Char)
    : lines (c :: text ++ '\n' :: rest)
      = (c :: (lines (text ++ '\n' :: rest)).headD []) :: (lines (text ++ '\n' :: rest)).tail := by
  refine lines_cons feed fun same => ?_
  cases text with
  | nil => exact absurd ⟨same, rfl⟩ goesOn
  | cons d text => simpa using after same

/-- A text falls apart at a line feed. By induction on the text before it, whose last line is not
ended where that text ends.
-/
theorem lines_append_newline (text rest : List Char)
    : lines (text ++ '\n' :: rest) = lines (text ++ ['\n']) ++ lines rest := by
  induction text using lines_induction with
  | nil => simp [lines]
  | feed text ih => simp [lines, ih]
  | carriage text ih =>
      simp only [List.cons_append, lines_of_return] at ih ⊢
      exact ih
  | inside c text feed after ih =>
      by_cases ends : c = '\r' ∧ text = []
      · obtain ⟨rfl, rfl⟩ := ends
        simp [lines]
      · have some : lines (text ++ ['\n']) ≠ [] := lines_ne_nil (by simp)
        obtain ⟨first, others, found⟩ := List.exists_cons_of_ne_nil some
        rw [lines_cons_append feed after ends rest, lines_cons_append feed after ends [], ih, found]
        rfl

/-- A line without the carriage return at its end, if it has one there. -/
def dropReturn (line : List Char) : List Char :=
  if line.getLast? = some '\r' then line.dropLast else line

theorem dropReturn_concat (line : List Char) : dropReturn (line ++ ['\r']) = line := by
  simp [dropReturn]

theorem dropReturn_of_ne (other : line.getLast? ≠ some '\r') : dropReturn line = line :=
  if_neg other

theorem dropReturn_eq_self_iff : dropReturn line = line ↔ line.getLast? ≠ some '\r' := by
  constructor
  · intro same ends
    obtain ⟨front, rfl⟩ := List.getLast?_eq_some_iff.1 ends
    rw [dropReturn_concat] at same
    simpa using congrArg List.length same
  · exact dropReturn_of_ne

theorem dropReturn_cons (goesOn : ¬ (c = '\r' ∧ line = []))
    : dropReturn (c :: line) = c :: dropReturn line := by
  cases line with
  | nil =>
      have other : c ≠ '\r' := fun same => goesOn ⟨same, rfl⟩
      simp [dropReturn, other]
  | cons d line =>
      unfold dropReturn
      rw [List.getLast?_cons_cons]
      split <;> rfl

theorem length_dropReturn_le (line : List Char) : (dropReturn line).length ≤ line.length := by
  unfold dropReturn
  split
  · rw [List.length_dropLast]
    exact Nat.sub_le _ _
  · exact Nat.le_refl _

/-- A line that is written with a line feed after it is read again, but for a carriage return at
its end, which then is part of the line end.
-/
theorem lines_of_newline_not_mem (none : '\n' ∉ line)
    : lines (line ++ ['\n']) = [dropReturn line] := by
  induction line using lines_induction with
  | nil => rfl
  | feed line => simp at none
  | carriage line => simp at none
  | inside c line feed after ih =>
      by_cases ends : c = '\r' ∧ line = []
      · obtain ⟨rfl, rfl⟩ := ends
        rfl
      · have more := ih fun inside => none (List.mem_cons_of_mem _ inside)
        rw [lines_cons_append feed after ends [], more, dropReturn_cons ends]
        rfl

/-- Lines that are written are read again, each without a carriage return at its end. -/
theorem lines_unlines {content : List (List Char)} (none : ∀ line ∈ content, '\n' ∉ line)
    : lines (unlines content) = content.map dropReturn := by
  induction content with
  | nil => rfl
  | cons line content ih =>
      obtain ⟨first, others⟩ := List.forall_mem_cons.1 none
      have split : unlines (line :: content) = line ++ '\n' :: unlines content := by simp [unlines]
      rw [split, lines_append_newline, lines_of_newline_not_mem first, ih others]
      rfl

theorem length_unlines_dropReturn_le (content : List (List Char))
    : (unlines (content.map dropReturn)).length ≤ (unlines content).length := by
  induction content with
  | nil => exact Nat.le_refl _
  | cons line content ih =>
      have first := length_dropReturn_le line
      simp only [unlines, List.map_cons, List.flatMap_cons, List.length_append] at ih ⊢
      omega

/-- Writing lines without the carriage returns at their ends only is the same where there are
none. By length: no line gets longer.
-/
theorem unlines_dropReturn_eq_iff {content : List (List Char)}
    : unlines (content.map dropReturn) = unlines content
      ↔ ∀ line ∈ content, line.getLast? ≠ some '\r' := by
  induction content with
  | nil => simp
  | cons line content ih =>
      rw [List.forall_mem_cons, ← ih, ← dropReturn_eq_self_iff]
      have first := length_dropReturn_le line
      have others := length_unlines_dropReturn_le content
      simp only [unlines, List.map_cons, List.flatMap_cons] at ih others ⊢
      constructor
      · intro same
        have lengths := congrArg List.length same
        simp only [List.length_append] at lengths
        obtain ⟨here, later⟩ := List.append_inj same (by simp; omega)
        exact ⟨List.append_cancel_right here, later⟩
      · intro both
        rw [both.1, both.2]

/-- Lines that are written have as many lines. -/
theorem length_lines_unlines {content : List (List Char)} (none : ∀ line ∈ content, '\n' ∉ line)
    : (lines (unlines content)).length = content.length := by
  rw [lines_unlines none, List.length_map]

end Gcode.Text
