import Gcode.Document
import Gcode.Proofs.Block
import Gcode.Proofs.Comment
import Gcode.Proofs.Text.Lines
import Gcode.Proofs.Value.Format

/-! Documents are read and written line by line.
What is said of a line depends on that line alone. The blocks that were read and the lines of the
text are brought together again by their numbers, and each line is written as one line.
-/

namespace Gcode

open Text
open CommentedLine (ofLine)

-----------------------------------------------------------------------------------------
-- One line
-----------------------------------------------------------------------------------------

section Line

variable {settings : Settings} {classifier : Classifier} {line : List Char} {block : Block}
  {comments : List (List Char)}

/-- The comments play no part in how the code is read. -/
theorem readLine_eq
    : readLine settings classifier line
      = (Block.read settings classifier (ofLine line).code).map
          fun block => (block, (ofLine line).comments) := by
  change (do
    let block ← Block.read settings classifier (ofLine line).code
    return (block, (ofLine line).comments)) = _
  cases Block.read settings classifier (ofLine line).code with
  | error error => rfl
  | ok found => rfl

theorem readLine_eq_ok_iff
    : readLine settings classifier line = .ok (block, comments)
      ↔ Block.read settings classifier (ofLine line).code = .ok block
        ∧ (ofLine line).comments = comments := by
  rw [readLine_eq]
  cases Block.read settings classifier (ofLine line).code with
  | error error => simp [Except.map]
  | ok found => simp [Except.map]

theorem readLine_eq_error_iff {error : Error}
    : readLine settings classifier line = .error error
      ↔ Block.read settings classifier (ofLine line).code = .error error := by
  rw [readLine_eq]
  cases Block.read settings classifier (ofLine line).code with
  | error error => simp [Except.map]
  | ok found => simp [Except.map]

theorem formatLine_of_ok
    (h : readLine settings ModalTable.linuxCnc.classify line = .ok (block, comments))
    : Document.formatLine settings line
      = [' '].intercalate ((if block.isEmpty then [] else [block.toText]) ++ comments) := by
  simp [Document.formatLine, h]

theorem formatLine_of_error {error : Error}
    (h : readLine settings ModalTable.linuxCnc.classify line = .error error)
    : Document.formatLine settings line = line := by
  simp [Document.formatLine, h]

/-- The blanks of the canonical text of a block are spaces: they are those of the text that was
read, once its blanks are in order, and those between the words.
-/
theorem Block.eq_space_of_mem_toText {table : ModalTable} {text : List Char} {c : Char}
    (read : Block.read settings table.classify text = .ok block) (member : c ∈ block.toText)
    (blank : isBlank c) : c = ' ' := by
  obtain ⟨words, scanned, _, rfl⟩ := read_eq_ok_iff.1 read
  have inWord : c = ' ' ∨ ∃ word ∈ words, c ∈ word.toText := by
    rcases mem_intercalate member with space | ⟨part, isPart, inside⟩
    · exact .inl space
    rcases List.mem_append.1 isPart with isPart | isPart
    · obtain ⟨instruction, isCode, rfl⟩ := List.mem_map.1 isPart
      obtain ⟨word, isWord, rfl⟩ := List.mem_map.1 isCode
      refine .inr ⟨word, (List.mem_filter.1 isWord).1, ?_⟩
      simpa [Instruction.toText, Instruction.words, List.intercalate] using inside
    · obtain ⟨word, isWord, rfl⟩ := List.mem_map.1 isPart
      exact .inr ⟨word, (List.mem_filter.1 isWord).1, inside⟩
  rcases inWord with space | ⟨word, isWord, inside⟩
  · exact space
  rcases List.mem_cons.1 inside with rfl | inside
  · rw [word.letter.isBlank_char] at blank
    contradiction
  · obtain ⟨t, value, inText⟩ := ValueFormat.mem_text_of_mem_render inside blank
    exact (spaced_normalize text).eq_space (mem_of_readWords scanned isWord value inText) blank

/-- A line is written without a line feed inside. -/
theorem newline_not_mem_formatLine (settings : Settings) (none : '\n' ∉ line)
    : '\n' ∉ Document.formatLine settings line := by
  cases h : readLine settings ModalTable.linuxCnc.classify line with
  | error error =>
      rw [formatLine_of_error h]
      exact none
  | ok found =>
      obtain ⟨block, comments⟩ := found
      obtain ⟨read, rfl⟩ := readLine_eq_ok_iff.1 h
      rw [formatLine_of_ok h]
      intro member
      rcases mem_intercalate member with space | ⟨part, isPart, inside⟩
      · contradiction
      rcases List.mem_append.1 isPart with isBlock | isComment
      · obtain rfl : part = block.toText := by
          split at isBlock
          · contradiction
          · exact List.mem_singleton.1 isBlock
        have space := Block.eq_space_of_mem_toText read inside rfl
        contradiction
      · exact none (CommentedLine.comments_subset isComment inside)

end Line

/-- A report of a line that stands a number of lines further down. -/
def Diagnostic.below (count : Nat) (found : Diagnostic) : Diagnostic :=
  { found with line := found.line + count }

namespace Document

-----------------------------------------------------------------------------------------
-- Reading line by line
-----------------------------------------------------------------------------------------

section Read

variable {settings : Settings} {classifier : Classifier} {line : List Char}
  {lines : List (List Char)} {number : Nat}

theorem ofLines_of_ok {block : Block} {comments : List (List Char)}
    (h : readLine settings classifier line = .ok (block, comments))
    : ofLines settings classifier number (line :: lines)
      = { blocks :=
            ⟨number, block, comments⟩ :: (ofLines settings classifier (number + 1) lines).blocks
          diagnostics := (ofLines settings classifier (number + 1) lines).diagnostics } := by
  simp [ofLines, h]

theorem ofLines_of_error {error : Error} (h : readLine settings classifier line = .error error)
    : ofLines settings classifier number (line :: lines)
      = { blocks := (ofLines settings classifier (number + 1) lines).blocks
          diagnostics :=
            ⟨number, error⟩ :: (ofLines settings classifier (number + 1) lines).diagnostics } := by
  simp [ofLines, h]

/-- A number has an outcome when it is that of a line which is read so by itself. -/
def IsOutcome (settings : Settings) (classifier : Classifier) (number : Nat)
    (lines : List (List Char)) (n : Nat) (outcome : Except Error (Block × List (List Char)))
    : Prop :=
  ∃ index line,
    n = number + index ∧ lines[index]? = some line ∧ readLine settings classifier line = outcome

section Outcome

variable {outcome : Except Error (Block × List (List Char))}

theorem isOutcome_first (h : readLine settings classifier line = outcome)
    : IsOutcome settings classifier number (line :: lines) number outcome :=
  ⟨0, line, rfl, rfl, h⟩

/-- Outcomes of lines are those of the same lines with one more before them. -/
theorem IsOutcome.later {n : Nat}
    (h : IsOutcome settings classifier (number + 1) lines n outcome)
    : IsOutcome settings classifier number (line :: lines) n outcome := by
  obtain ⟨index, other, same, inside, read⟩ := h
  exact ⟨index + 1, other, by omega, inside, read⟩

end Outcome

/-- What a document says of lines that are numbered from a given number on: the number of every
line is there once, with a block or with an error, both in order, and what is said with it is what
is read of that line by itself.
-/
structure Reports (settings : Settings) (classifier : Classifier) (number : Nat)
    (lines : List (List Char)) (document : Document) : Prop where
  once
    : (document.blocks.map LineBlock.line ++ document.diagnostics.map Diagnostic.line).Perm
        (List.range' number lines.length)
  blocksInOrder : (document.blocks.map LineBlock.line).Pairwise (· < ·)
  diagnosticsInOrder : (document.diagnostics.map Diagnostic.line).Pairwise (· < ·)
  blocks
    : ∀ found ∈ document.blocks,
        IsOutcome settings classifier number lines found.line (.ok (found.block, found.comments))
  diagnostics
    : ∀ found ∈ document.diagnostics,
        IsOutcome settings classifier number lines found.line (.error found.error)

/-- The numbers of the lines that a document speaks of start with the first one. -/
theorem Reports.le {document : Document} (h : document.Reports settings classifier number lines)
    : (∀ n ∈ document.blocks.map LineBlock.line, number ≤ n)
      ∧ ∀ n ∈ document.diagnostics.map Diagnostic.line, number ≤ n := by
  rw [← List.forall_mem_append]
  intro n member
  exact (List.mem_range'_1.1 (h.once.subset member)).1

/-- Every line is reported, by induction on the lines: the first one is put before the others. -/
theorem reports_ofLines (settings : Settings) (classifier : Classifier) (number : Nat)
    (lines : List (List Char))
    : (ofLines settings classifier number lines).Reports settings classifier number lines := by
  induction lines generalizing number with
  | nil =>
      exact ⟨.nil, .nil, .nil, fun _ member => by contradiction, fun _ member => by contradiction⟩
  | cons line lines ih =>
      have later := ih (number + 1)
      obtain ⟨laterBlocks, laterDiagnostics⟩ := later.le
      cases h : readLine settings classifier line with
      | ok found =>
          obtain ⟨block, comments⟩ := found
          rw [ofLines_of_ok h]
          exact {
            once := later.once.cons number
            blocksInOrder := List.pairwise_cons.2 ⟨laterBlocks, later.blocksInOrder⟩
            diagnosticsInOrder := later.diagnosticsInOrder
            blocks := List.forall_mem_cons.2
              ⟨isOutcome_first h, fun found member => (later.blocks found member).later⟩
            diagnostics := fun found member => (later.diagnostics found member).later }
      | error error =>
          rw [ofLines_of_error h]
          exact {
            once := List.perm_middle.trans (later.once.cons number)
            blocksInOrder := later.blocksInOrder
            diagnosticsInOrder :=
              List.pairwise_cons.2 ⟨laterDiagnostics, later.diagnosticsInOrder⟩
            blocks := fun found member => (later.blocks found member).later
            diagnostics := List.forall_mem_cons.2
              ⟨isOutcome_first h, fun found member => (later.diagnostics found member).later⟩ }

/-- Lines that come after others are reported after them. -/
theorem diagnostics_append (number : Nat) (first second : List (List Char))
    : (ofLines settings classifier number (first ++ second)).diagnostics
      = (ofLines settings classifier number first).diagnostics
        ++ (ofLines settings classifier (number + first.length) second).diagnostics := by
  induction first generalizing number with
  | nil => rfl
  | cons line first ih =>
      have later := ih (number + 1)
      rw [Nat.add_assoc, Nat.add_comm 1] at later
      cases h : readLine settings classifier line with
      | ok found => simpa [ofLines_of_ok h] using later
      | error error => simpa [ofLines_of_error h] using later

/-- Where lines stand in a document only counts for their numbers. -/
theorem diagnostics_below (number count : Nat) (lines : List (List Char))
    : (ofLines settings classifier (number + count) lines).diagnostics
      = (ofLines settings classifier number lines).diagnostics.map (Diagnostic.below count) := by
  induction lines generalizing number with
  | nil => rfl
  | cons line lines ih =>
      have later := ih (number + 1)
      rw [Nat.add_right_comm] at later
      cases h : readLine settings classifier line with
      | ok found => simpa [ofLines_of_ok h] using later
      | error error => simpa [ofLines_of_error h, Diagnostic.below] using later

/-- Lines that are reported alike have the same diagnostics. -/
theorem diagnostics_map {f : List Char → List Char}
    (same
      : ∀ line ∈ lines, ∀ error,
          readLine settings classifier (f line) = .error error
            ↔ readLine settings classifier line = .error error)
    : (ofLines settings classifier number (lines.map f)).diagnostics
      = (ofLines settings classifier number lines).diagnostics := by
  induction lines generalizing number with
  | nil => rfl
  | cons line lines ih =>
      obtain ⟨first, others⟩ := List.forall_mem_cons.1 same
      rw [List.map_cons]
      cases h : readLine settings classifier line with
      | error error =>
          rw [ofLines_of_error ((first error).2 h), ofLines_of_error h, ih others]
      | ok found =>
          cases h' : readLine settings classifier (f line) with
          | error error =>
              rw [(first error).1 h'] at h
              contradiction
          | ok other => rw [ofLines_of_ok h', ofLines_of_ok h, ih others]

end Read

-----------------------------------------------------------------------------------------
-- Writing line by line
-----------------------------------------------------------------------------------------

section Write

variable {settings : Settings} {line : List Char} {lines : List (List Char)} {number : Nat}

/-- A line stays as it is where the blocks are all of lines below. -/
theorem weave_of_later {blocks : List LineBlock}
    (later : ∀ n ∈ blocks.map LineBlock.line, number + 1 ≤ n)
    : weave number blocks (line :: lines) = line :: weave (number + 1) blocks lines := by
  cases blocks with
  | nil => rfl
  | cons found blocks =>
      have below := later found.line List.mem_cons_self
      rw [weave, if_neg (by omega)]

/-- The blocks that were read of lines fall into place beside them: each line meets its own block,
if it has one, and no other. By induction on the lines, with the blocks of those that are left.
-/
theorem weave_ofLines (number : Nat) (lines : List (List Char))
    : weave number (ofLines settings ModalTable.linuxCnc.classify number lines).blocks lines
      = lines.map (formatLine settings) := by
  induction lines generalizing number with
  | nil => simp [weave]
  | cons line lines ih =>
      cases h : readLine settings ModalTable.linuxCnc.classify line with
      | ok found =>
          obtain ⟨block, comments⟩ := found
          rw [ofLines_of_ok h, weave, if_pos rfl, ih, List.map_cons, formatLine_of_ok h]
          rfl
      | error error =>
          have later := reports_ofLines settings ModalTable.linuxCnc.classify (number + 1) lines
          rw [ofLines_of_error h, weave_of_later later.le.1, ih, List.map_cons,
            formatLine_of_error h]

theorem format_eq (settings : Settings) (content : List Char)
    : format settings content
      = (unlines ((Text.lines content).map (formatLine settings)),
          (read settings ModalTable.linuxCnc.classify content).diagnostics) := by
  change (unlines (weave 1 (read settings ModalTable.linuxCnc.classify content).blocks
    (Text.lines content)), _) = _
  rw [read, weave_ofLines]

/-- Formatted text has as many lines as there were. -/
theorem length_lines_format (settings : Settings) (content : List Char)
    : (Text.lines (format settings content).1).length = (Text.lines content).length := by
  rw [format_eq, length_lines_unlines, List.length_map]
  intro written member
  obtain ⟨line, isLine, rfl⟩ := List.mem_map.1 member
  exact newline_not_mem_formatLine settings (newline_not_mem_lines isLine)

/-- A document that falls into two at a line feed is formatted part by part. -/
theorem format_append (settings : Settings) (first second : List Char)
    : format settings (first ++ '\n' :: second)
      = ((format settings (first ++ ['\n'])).1 ++ (format settings second).1,
          (format settings (first ++ ['\n'])).2
            ++ (format settings second).2.map
              (Diagnostic.below (Text.lines (first ++ ['\n'])).length)) := by
  simp only [format_eq, read, lines_append_newline first second, diagnostics_append,
    diagnostics_below, List.map_append, unlines, List.flatMap_append]

/-- A document is read and formatted line by line. Every line is reported once and in order, with
what is read of it by itself, whatever words are sorted by. What is written has one line for each
line, in order: the canonical text and the comments of a line that can be read, and any other line
as it is, which is reported. So the parts of a document before and after a line feed are formatted
each by itself, and only the line numbers of the second part change.
-/
theorem format_line_by_line (settings : Settings) (content : List Char)
    : (∀ classifier,
          (read settings classifier content).Reports settings classifier 1 (Text.lines content))
      ∧ format settings content
        = (unlines ((Text.lines content).map fun line =>
            match readLine settings ModalTable.linuxCnc.classify line with
            | .ok (block, comments) =>
                [' '].intercalate ((if block.isEmpty then [] else [block.toText]) ++ comments)
            | .error _ => line),
          (read settings ModalTable.linuxCnc.classify content).diagnostics)
      ∧ (Text.lines (format settings content).1).length = (Text.lines content).length
      ∧ ∀ first second,
          format settings (first ++ '\n' :: second)
            = ((format settings (first ++ ['\n'])).1 ++ (format settings second).1,
                (format settings (first ++ ['\n'])).2
                  ++ (format settings second).2.map
                    (Diagnostic.below (Text.lines (first ++ ['\n'])).length)) :=
  ⟨fun classifier => reports_ofLines settings classifier 1 _, format_eq settings content,
    length_lines_format settings content, format_append settings⟩

end Write

end Document
end Gcode
