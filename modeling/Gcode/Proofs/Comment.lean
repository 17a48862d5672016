import Gcode.Comment
import Gcode.Proofs.Text.Blank

/-! Comments of a line, taken from it and put at its end.
The comments that are taken from a line are found again in the same order when they stand at the
end of a line with spaces before them: all of them but the last one are closed.
-/

namespace Gcode.CommentedLine

open Text

/-- A character that no comment starts with. -/
def IsCode (c : Char) : Prop :=
  c ≠ ';' ∧ c ≠ '('

instance (c : Char) : Decidable (IsCode c) :=
  inferInstanceAs (Decidable (_ ∧ _))

/-- Comments of one line in order: what is not closed goes on to the end of the line. -/
inductive InOrder : List (List Char) → Prop where
  | none : InOrder []
  | toEnd (text : List Char) : InOrder [';' :: text]
  | unclosed (text : List Char) (inside : ')' ∉ text) : InOrder ['(' :: text]
  | closed (text : List Char) (inside : ')' ∉ text) {comments : List (List Char)}
    (after : InOrder comments) : InOrder (('(' :: (text ++ [')'])) :: comments)

section Split

variable {text rest : List Char}

theorem stops_closing (rest : List Char) : Stops (fun c => decide (c ≠ ')')) (')' :: rest) := by
  simp

theorem all_open (inside : ')' ∉ text) : ∀ c ∈ text, decide (c ≠ ')') = true := fun c member => by
  simpa using ne_of_mem_of_not_mem member inside

/-- A comment ends with the first closing parenthesis. -/
theorem splitParenthesis_closed (inside : ')' ∉ text)
    : splitParenthesis (text ++ ')' :: rest) = (text ++ [')'], rest) := by
  rw [splitParenthesis, takeWhile_run (all_open inside) (stops_closing rest),
    dropWhile_run (all_open inside) (stops_closing rest)]
  rfl

/-- Without a closing parenthesis a comment ends with the line. -/
theorem splitParenthesis_unclosed (inside : ')' ∉ text) : splitParenthesis text = (text, []) := by
  rw [splitParenthesis, takeWhile_all (all_open inside), dropWhile_all (all_open inside)]
  simp

/-- A text either has no closing parenthesis or splits at the first one. -/
theorem exists_split (text : List Char)
    : ')' ∉ text ∨ ∃ front rest, ')' ∉ front ∧ text = front ++ ')' :: rest := by
  have parts := List.takeWhile_append_dropWhile (p := fun c => decide (c ≠ ')')) (l := text)
  have front : ')' ∉ text.takeWhile (fun c => decide (c ≠ ')')) := fun member => by
    simpa using of_mem_takeWhile member
  cases hd : text.dropWhile (fun c => decide (c ≠ ')')) with
  | nil =>
      rw [hd, List.append_nil] at parts
      exact .inl (parts ▸ front)
  | cons c rest =>
      have stop := stops_dropWhile (fun c => decide (c ≠ ')')) text
      rw [hd, stops_cons] at stop
      obtain rfl : c = ')' := by simpa using stop
      exact .inr ⟨_, rest, front, by rw [← hd, parts]⟩

end Split

-----------------------------------------------------------------------------------------
-- What a line is taken apart into
-----------------------------------------------------------------------------------------

/-- Code has no character that a comment starts with. -/
theorem isCode_code (line : List Char) : ∀ c ∈ (ofLine line).code, IsCode c := by
  fun_induction ofLine line with
  | case1 => simp
  | case2 => simp [IsCode]
  | case3 text after ih => exact List.forall_mem_cons.2 ⟨by simp [IsCode], ih⟩
  | case4 c text semicolon parenthesis after ih =>
      exact List.forall_mem_cons.2 ⟨⟨semicolon, parenthesis⟩, ih⟩

theorem inOrder_comments (line : List Char) : InOrder (ofLine line).comments := by
  fun_induction ofLine line with
  | case1 => exact .none
  | case2 text => exact .toEnd text
  | case3 text after ih =>
      rcases exists_split text with inside | ⟨front, rest, inside, rfl⟩
      · have same : after = ofLine [] := by
          simp only [after, splitParenthesis_unclosed inside]
        rw [same, splitParenthesis_unclosed inside, ofLine]
        exact .unclosed text inside
      · rw [splitParenthesis_closed inside]
        exact .closed front inside ih
  | case4 c text semicolon parenthesis after ih => exact ih

theorem splitParenthesis_subset (text : List Char)
    : (splitParenthesis text).1 ⊆ text ∧ (splitParenthesis text).2 ⊆ text := by
  have later := (List.dropWhile_sublist (l := text) (fun c => decide (c ≠ ')'))).subset
  constructor
  · refine List.append_subset.2 ⟨(List.takeWhile_sublist _).subset, ?_⟩
    exact List.Subset.trans (List.take_sublist 1 _).subset later
  · exact List.Subset.trans (List.drop_sublist 1 _).subset later

theorem comments_subset {line comment : List Char} (member : comment ∈ (ofLine line).comments)
    : comment ⊆ line := by
  fun_induction ofLine line with
  | case1 => contradiction
  | case2 text => exact fun c inside => List.mem_singleton.1 member ▸ inside
  | case3 text after ih =>
      obtain ⟨inside, rest⟩ := splitParenthesis_subset text
      rcases List.mem_cons.1 member with rfl | member
      · exact List.cons_subset_cons _ inside
      · exact List.Subset.trans (ih member) (List.Subset.trans rest (List.subset_cons_self _ _))
  | case4 d text semicolon parenthesis after ih =>
      exact List.Subset.trans (ih member) (List.subset_cons_self _ _)

-----------------------------------------------------------------------------------------
-- Comments at the end of a line
-----------------------------------------------------------------------------------------

theorem ofLine_cons {c : Char} {text : List Char} (code : IsCode c)
    : ofLine (c :: text) = ⟨c :: (ofLine text).code, (ofLine text).comments⟩ := by
  rw [ofLine.eq_def]
  split <;> simp_all [IsCode]

/-- Code at the start of a line stays as it is. -/
theorem ofLine_append {code rest : List Char} (all : ∀ c ∈ code, IsCode c)
    : ofLine (code ++ rest) = ⟨code ++ (ofLine rest).code, (ofLine rest).comments⟩ := by
  induction code with
  | nil => rfl
  | cons c code ih =>
      obtain ⟨first, others⟩ := List.forall_mem_cons.1 all
      rw [List.cons_append, ofLine_cons first, ih others]
      rfl

theorem ofLine_closed {text rest : List Char} (inside : ')' ∉ text)
    : ofLine ('(' :: (text ++ ')' :: rest))
      = ⟨' ' :: (ofLine rest).code, ('(' :: (text ++ [')'])) :: (ofLine rest).comments⟩ := by
  rw [ofLine, splitParenthesis_closed inside]

/-- Comments with spaces between them are found again, and only blanks are left of the code. -/
theorem ofLine_intercalate {comments : List (List Char)} (h : InOrder comments)
    : ∃ blanks, (∀ c ∈ blanks, isBlank c)
        ∧ ofLine ([' '].intercalate comments) = ⟨blanks, comments⟩ := by
  induction h with
  | none => exact ⟨[], List.forall_mem_nil _, by simp [ofLine]⟩
  | toEnd text => exact ⟨[' '], List.forall_mem_singleton.2 rfl, by simp [ofLine]⟩
  | unclosed text inside =>
      refine ⟨[' '], List.forall_mem_singleton.2 rfl, ?_⟩
      simp [ofLine, splitParenthesis_unclosed inside]
  | @closed text inside comments after ih =>
      obtain ⟨blanks, all, same⟩ := ih
      rw [intercalate_cons]
      cases comments with
      | nil =>
          refine ⟨[' '], List.forall_mem_singleton.2 rfl, ?_⟩
          have whole := @ofLine_closed text [] inside
          simpa [ofLine] using whole
      | cons comment comments =>
          refine ⟨' ' :: ' ' :: blanks, by simpa using ⟨rfl, all⟩, ?_⟩
          have space : IsCode ' ' := by decide
          rw [if_neg (by simp), List.cons_append, List.append_assoc, List.singleton_append,
            ofLine_closed inside, ofLine_cons space, same]

/-- Code and then comments, with spaces between them, are told apart again. -/
theorem ofLine_code_comments {code : List Char} {comments : List (List Char)}
    (all : ∀ c ∈ code, IsCode c) (h : InOrder comments)
    : ∃ blanks, (∀ c ∈ blanks, isBlank c)
        ∧ ofLine ([' '].intercalate ((if code = [] then [] else [code]) ++ comments))
          = ⟨code ++ blanks, comments⟩ := by
  obtain ⟨blanks, hb, same⟩ := ofLine_intercalate h
  split
  · rename_i none
    exact ⟨blanks, hb, by rw [none, List.nil_append, same, List.nil_append]⟩
  · rw [List.singleton_append, intercalate_cons, ofLine_append all]
    split
    · rename_i none
      exact ⟨[], List.forall_mem_nil _, by rw [none]; simp [ofLine]⟩
    · have space : IsCode ' ' := by decide
      exact ⟨' ' :: blanks, by simpa using ⟨rfl, hb⟩, by rw [ofLine_cons space, same]⟩

-----------------------------------------------------------------------------------------
-- One more character
-----------------------------------------------------------------------------------------

/-- How a line goes on with one more character that neither starts nor ends a comment: as code,
where all comments are closed, or in the last comment.
-/
inductive Continues (c : Char) (line : CommentedLine) : CommentedLine → Prop
  | code (closed : ∀ comment ∈ line.comments, comment.getLast? = some ')')
    : Continues c line ⟨line.code ++ [c], line.comments⟩
  | comment {before : List (List Char)} {last : List Char}
    (comments : line.comments = before ++ [last])
    : Continues c line ⟨line.code, before ++ [last ++ [c]]⟩

variable {c : Char} {line : CommentedLine}

/-- A character of code before a line does not change how it goes on. -/
theorem Continues.cons_code {after : CommentedLine} (h : Continues c line after) (d : Char)
    : Continues c ⟨d :: line.code, line.comments⟩ ⟨d :: after.code, after.comments⟩ := by
  cases h with
  | code closed => exact .code closed
  | comment comments => exact .comment comments

/-- A closed comment before a line does not change how it goes on. -/
theorem Continues.cons_comment {after : CommentedLine} {comment : List Char}
    (h : Continues c line after) (closed : comment.getLast? = some ')')
    : Continues c ⟨' ' :: line.code, comment :: line.comments⟩
        ⟨' ' :: after.code, comment :: after.comments⟩ := by
  cases h with
  | code all => exact .code (List.forall_mem_cons.2 ⟨closed, all⟩)
  | @comment before last comments =>
      exact @Continues.comment c _ (comment :: before) last (congrArg (comment :: ·) comments)

theorem continues_ofLine (code : IsCode c) (inside : c ≠ ')') (text : List Char)
    : Continues c (ofLine text) (ofLine (text ++ [c])) := by
  fun_induction ofLine text with
  | case1 =>
      rw [List.nil_append, ofLine_cons code]
      have none : ∀ comment ∈ (⟨[], []⟩ : CommentedLine).comments, comment.getLast? = some ')' :=
        List.forall_mem_nil _
      simpa [ofLine] using Continues.code none
  | case2 text =>
      rw [List.cons_append, ofLine]
      exact @Continues.comment c ⟨[' '], [';' :: text]⟩ [] (';' :: text) rfl
  | case3 text after ih =>
      rcases exists_split text with unclosed | ⟨front, rest, front_inside, rfl⟩
      · have unclosed' : ')' ∉ text ++ [c] := by simp [unclosed, inside.symm]
        have none : after = ofLine [] := by simp only [after, splitParenthesis_unclosed unclosed]
        rw [none, splitParenthesis_unclosed unclosed, List.cons_append, ofLine, ofLine,
          splitParenthesis_unclosed unclosed', ofLine]
        exact @Continues.comment c ⟨[' '], ['(' :: text]⟩ [] ('(' :: text) rfl
      · have rest_eq : (splitParenthesis (front ++ ')' :: rest)).2 = rest := by
          rw [splitParenthesis_closed front_inside]
        rw [rest_eq] at ih
        have whole : '(' :: (front ++ ')' :: rest) ++ [c]
            = '(' :: (front ++ ')' :: (rest ++ [c])) := by simp
        rw [whole, ofLine_closed front_inside]
        simp only [after, splitParenthesis_closed front_inside]
        refine ih.cons_comment ?_
        rw [← List.cons_append, List.getLast?_concat]
  | case4 d text semicolon parenthesis after ih =>
      rw [List.cons_append, ofLine_cons ⟨semicolon, parenthesis⟩]
      exact ih.cons_code d

end Gcode.CommentedLine
