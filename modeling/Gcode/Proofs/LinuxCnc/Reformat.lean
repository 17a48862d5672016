import Gcode.Proofs.LinuxCnc.Document

/-! Formatting a document again.
A line that is written and ends in a carriage return loses it when the document is read again, as
it then belongs to the line end. Nothing else changes, and the same lines are reported.
-/

namespace Gcode

open Text
open CommentedLine (ofLine Continues continues_ofLine)

-----------------------------------------------------------------------------------------
-- How a written line ends
-----------------------------------------------------------------------------------------

section Ends

variable {settings : Settings} {line front last : List Char} {block : Block}
  {comments before : List (List Char)} {error : Error}

theorem CommentedLine.InOrder.ne_nil (h : InOrder comments) {comment : List Char}
    (member : comment ∈ comments) : comment ≠ [] := by
  induction h with
  | none => contradiction
  | toEnd text => exact List.mem_singleton.1 member ▸ List.cons_ne_nil _ _
  | unclosed text inside => exact List.mem_singleton.1 member ▸ List.cons_ne_nil _ _
  | closed text inside after ih =>
      rcases List.mem_cons.1 member with rfl | member
      · exact List.cons_ne_nil _ _
      · exact ih member

/-- Texts with spaces between them end as the last one ends. -/
theorem Text.getLast?_intercalate {texts : List (List Char)} (some : last ≠ [])
    : ([' '].intercalate (texts ++ [last])).getLast? = last.getLast? := by
  obtain ⟨c, ends⟩ := Option.ne_none_iff_exists'.1 (mt List.getLast?_eq_none_iff.1 some)
  rw [intercalate_concat, List.getLast?_append, ends, Option.some_or]

/-- A line keeps a carriage return at its end when it is written: it cannot be read and ends in
one, or its last comment does, which is not closed.
-/
def Document.KeepsReturn (settings : Settings) (line : List Char) : Prop :=
  match readLine settings ModalTable.linuxCnc.classify line with
  | .ok (_, comments) => ∃ last, comments.getLast? = some last ∧ last.getLast? = some '\r'
  | .error _ => line.getLast? = some '\r'

/-- The canonical text of a block has no carriage return. -/
theorem Block.return_not_mem_toText {text : List Char}
    (read : Block.read settings ModalTable.linuxCnc.classify text = .ok block)
    : '\r' ∉ block.toText := by
  intro member
  have space := eq_space_of_mem_toText read member rfl
  contradiction

theorem Document.getLast?_formatLine_iff
    : (formatLine settings line).getLast? = some '\r' ↔ KeepsReturn settings line := by
  cases h : readLine settings ModalTable.linuxCnc.classify line with
  | error error => rw [formatLine_of_error h, KeepsReturn, h]
  | ok found =>
      obtain ⟨block, comments⟩ := found
      obtain ⟨read, rfl⟩ := readLine_eq_ok_iff.1 h
      have inOrder := CommentedLine.inOrder_comments line
      rw [formatLine_of_ok h, KeepsReturn, h]
      rcases List.eq_nil_or_concat (ofLine line).comments with none | ⟨before, last, found⟩
      · rw [none, List.append_nil]
        refine iff_of_false (fun ends => ?_) (by simp)
        split at ends
        · simp at ends
        · have member := List.mem_of_getLast? ends
          exact Block.return_not_mem_toText read (by simpa [List.intercalate] using member)
      · rw [List.concat_eq_append] at found
        have some : last ≠ [] := inOrder.ne_nil (by rw [found]; simp)
        rw [found, ← List.append_assoc, getLast?_intercalate some]
        simp

end Ends

-----------------------------------------------------------------------------------------
-- A line without the carriage return at its end
-----------------------------------------------------------------------------------------

section Drop

variable {settings : Settings} {line front : List Char} {error : Error}

/-- A carriage return at the end of a line is a blank after its code or part of its last comment,
so the code is the same once its blanks are in order.
-/
theorem normalize_code_return (front : List Char)
    : normalize (ofLine (front ++ ['\r'])).code = normalize (ofLine front).code := by
  have goesOn := continues_ofLine (c := '\r') (by decide) (by decide) front
  generalize ofLine (front ++ ['\r']) = whole at goesOn
  cases goesOn with
  | code closed => exact normalize_append_blanks (List.forall_mem_singleton.2 rfl)
  | comment comments => rfl

theorem dropReturn_cases (line : List Char)
    : dropReturn line = line ∨ ∃ front, line = front ++ ['\r'] ∧ dropReturn line = front := by
  by_cases ends : line.getLast? = some '\r'
  · obtain ⟨front, rfl⟩ := List.getLast?_eq_some_iff.1 ends
    exact .inr ⟨front, rfl, dropReturn_concat front⟩
  · exact .inl (dropReturn_of_ne ends)

/-- A line is reported as it is without the carriage return at its end. -/
theorem readLine_dropReturn_eq_error_iff
    : readLine settings ModalTable.linuxCnc.classify (dropReturn line) = .error error
      ↔ readLine settings ModalTable.linuxCnc.classify line = .error error := by
  rcases dropReturn_cases line with same | ⟨front, rfl, same⟩
  · rw [same]
  · rw [same, readLine_eq_error_iff, readLine_eq_error_iff,
      Block.read_of_normalize_eq (normalize_code_return front)]
    cases Block.read settings ModalTable.linuxCnc.classify (ofLine front).code <;> simp [Except.map]

/-- A line that formatting leaves as it is stays so without the carriage return at its end. If it
can be read, the carriage return is in its last comment: canonical texts have none, and closed
comments do not end in one.
-/
theorem formatLine_dropReturn (h : Document.formatLine settings line = line)
    : Document.formatLine settings (dropReturn line) = dropReturn line := by
  rcases dropReturn_cases line with same | ⟨front, rfl, same⟩
  · rwa [same]
  rw [same]
  cases read : readLine settings ModalTable.linuxCnc.classify (front ++ ['\r']) with
  | error error =>
      have fails := readLine_dropReturn_eq_error_iff.2 read
      rw [dropReturn_concat] at fails
      exact formatLine_of_error fails
  | ok found =>
      obtain ⟨block, comments⟩ := found
      obtain ⟨readBlock, rfl⟩ := readLine_eq_ok_iff.1 read
      have ends : Document.KeepsReturn settings (front ++ ['\r']) := by
        rw [← Document.getLast?_formatLine_iff, h, List.getLast?_concat]
      rw [Document.KeepsReturn, read] at ends
      rw [formatLine_of_ok read] at h
      rw [Block.read_of_normalize_eq (normalize_code_return front)] at readBlock
      have goesOn := continues_ofLine (c := '\r') (by decide) (by decide) front
      generalize whole : ofLine (front ++ ['\r']) = other at goesOn ends h
      cases goesOn with
      | code closed =>
          obtain ⟨last, found, isReturn⟩ := ends
          have isClosing := closed last (List.mem_of_getLast? found)
          rw [isReturn] at isClosing
          contradiction
      | @comment before last comments =>
          cases readFront : Block.read settings ModalTable.linuxCnc.classify (ofLine front).code with
          | error error =>
              rw [readFront] at readBlock
              contradiction
          | ok first =>
              rw [readFront] at readBlock
              cases readBlock
              rw [formatLine_of_ok (readLine_eq_ok_iff.2 ⟨readFront, comments⟩)]
              rw [← List.append_assoc, intercalate_concat, ← List.append_assoc] at h
              rw [← List.append_assoc, intercalate_concat]
              exact List.append_cancel_right h

end Drop

namespace LinuxCnc

-----------------------------------------------------------------------------------------
-- The whole document
-----------------------------------------------------------------------------------------

/-- The lines of a formatted document are the lines that were written, without the carriage returns
at their ends.
-/
theorem lines_format (settings : Settings) (content : List Char)
    : Text.lines (Document.format settings content).1
      = (Text.lines content).map fun line => dropReturn (Document.formatLine settings line) := by
  rw [Document.format_eq, lines_unlines, List.map_map]
  · rfl
  · intro written member
    obtain ⟨line, isLine, rfl⟩ := List.mem_map.1 member
    exact newline_not_mem_formatLine settings (newline_not_mem_lines isLine)

/-- A document that was formatted is formatted again: every line loses the carriage return that it
is written with at its end, if there is one, and nothing else changes; what is reported is the
same. So formatting changes nothing exactly when no line is written with a carriage return at its
end. Each line that was written stays as it is, with and without that carriage return, and is
reported like the line that it was written for.
-/
theorem format_again (xyDecimals : Precision) (verify : Bool) (content : List Char)
    : Document.format { xyDecimals, verify } (Document.format { xyDecimals, verify } content).1
        = (unlines ((Text.lines content).map fun line =>
              dropReturn (Document.formatLine { xyDecimals, verify } line)),
            (Document.format { xyDecimals, verify } content).2)
      ∧ ((Document.format { xyDecimals, verify }
              (Document.format { xyDecimals, verify } content).1).1
            = (Document.format { xyDecimals, verify } content).1
          ↔ ∀ line ∈ Text.lines content,
              ¬ Document.KeepsReturn { xyDecimals, verify } line) := by
  have written := lines_format { xyDecimals, verify } content
  have stays (line : List Char)
      : Document.formatLine { xyDecimals, verify }
          (dropReturn (Document.formatLine { xyDecimals, verify } line))
        = dropReturn (Document.formatLine { xyDecimals, verify } line) :=
    formatLine_dropReturn (formatLine_stable xyDecimals verify line).2
  have reported (line : List Char) (error : Error)
      : readLine { xyDecimals, verify } ModalTable.linuxCnc.classify
            (dropReturn (Document.formatLine { xyDecimals, verify } line)) = .error error
        ↔ readLine { xyDecimals, verify } ModalTable.linuxCnc.classify line = .error error :=
    readLine_dropReturn_eq_error_iff.trans
      (formatLine_stable xyDecimals verify line).1.eq_error_iff
  have again
      : Document.format { xyDecimals, verify } (Document.format { xyDecimals, verify } content).1
        = (unlines ((Text.lines content).map fun line =>
              dropReturn (Document.formatLine { xyDecimals, verify } line)),
            (Document.format { xyDecimals, verify } content).2) := by
    rw [Document.format_eq _ (Document.format _ content).1, Document.read, written, List.map_map,
      Document.diagnostics_map fun line _ => reported line, Document.format_eq, Document.read]
    simp only [Function.comp_def, stays]
  refine ⟨again, ?_⟩
  rw [again, Document.format_eq]
  rw [← Function.comp_def dropReturn, ← List.map_map, unlines_dropReturn_eq_iff, List.forall_mem_map]
  simp only [ne_eq, Document.getLast?_formatLine_iff]

/-- A line that cannot be read is written with the carriage return at its end, and loses it when
the document is formatted again.
-/
theorem format_again_return
    : (Document.format {} "#\r\r\n".toList).1 = "#\r\n".toList
      ∧ (Document.format {} (Document.format {} "#\r\r\n".toList).1).1 = "#\n".toList := by
  decide +kernel

end LinuxCnc
end Gcode
