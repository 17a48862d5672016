import Gcode.Comment.Offsets
import Gcode.Proofs.Comment

/-! The parts of a line: code and comments in turn.
A line falls into its parts in one way only. The comments that it is taken apart into are those of
the parts, and the code is that of the parts with a space for every comment. Taking comments as
slices between offsets gives the same, so all of these slices exist.
-/

namespace Gcode.CommentedLine

open Text

-----------------------------------------------------------------------------------------
-- Parts of a line
-----------------------------------------------------------------------------------------

/-- A comment and the code after it, up to the next comment. -/
structure Passage where
  comment : List Char
  code : List Char

/-- Code, and then comments with the code after them. -/
structure Parts where
  front : List Char
  passages : List Passage

/-- The text of comments with the code after them. -/
def passagesText (passages : List Passage) : List Char :=
  passages.flatMap fun passage => passage.comment ++ passage.code

namespace Parts

def text (parts : Parts) : List Char :=
  parts.front ++ passagesText parts.passages

/-- The comments, and the code with a space for every comment. -/
def taken (parts : Parts) : CommentedLine where
  code := parts.front ++ parts.passages.flatMap fun passage => ' ' :: passage.code
  comments := parts.passages.map Passage.comment

end Parts

/-- Passages as they stand in a line: a closed comment with code after it, or the last comment,
which runs to the end of the line.
-/
inductive InLine : List Passage → Prop where
  | none : InLine []
  | toEnd (text : List Char) : InLine [⟨';' :: text, []⟩]
  | unclosed (text : List Char) (inside : ')' ∉ text) : InLine [⟨'(' :: text, []⟩]
  | closed (text : List Char) (inside : ')' ∉ text) {code : List Char}
    (isCode : ∀ c ∈ code, IsCode c) {passages : List Passage} (after : InLine passages)
    : InLine (⟨'(' :: (text ++ [')']), code⟩ :: passages)

/-- Parts of a line: no comment starts in the code, and the passages stand as they do in a line. -/
structure Parts.WellFormed (parts : Parts) : Prop where
  front : ∀ c ∈ parts.front, IsCode c
  passages : InLine parts.passages

variable {line text rest code code' : List Char} {passages : List Passage} {parts other : Parts}

theorem passagesText_cons (passage : Passage) (passages : List Passage)
    : passagesText (passage :: passages)
      = passage.comment ++ (passage.code ++ passagesText passages) := by
  simp [passagesText]

/-- Comments with code after them start with a comment, if there are any. -/
theorem InLine.stops (h : InLine passages)
    : Stops (fun c => decide (IsCode c)) (passagesText passages) := by
  cases h with
  | none => exact stops_nil
  | toEnd text => exact stops_cons.2 rfl
  | unclosed text inside => exact stops_cons.2 rfl
  | closed text inside isCode after => exact stops_cons.2 rfl

/-- What a line is taken apart into is known from its parts, by induction on the passages. -/
theorem InLine.ofLine_passagesText (h : InLine passages)
    : ofLine (passagesText passages)
      = ⟨passages.flatMap fun passage => ' ' :: passage.code, passages.map Passage.comment⟩ := by
  induction h with
  | none => simp [passagesText, ofLine]
  | toEnd text => simp [passagesText, ofLine]
  | unclosed text inside => simp [passagesText, ofLine, splitParenthesis_unclosed inside]
  | @closed text inside code isCode passages after ih =>
      have whole : passagesText (⟨'(' :: (text ++ [')']), code⟩ :: passages)
          = '(' :: (text ++ ')' :: (code ++ passagesText passages)) := by
        simp [passagesText]
      rw [whole, ofLine_closed inside, ofLine_append isCode, ih]
      simp

theorem Parts.WellFormed.ofLine_text (h : parts.WellFormed) : ofLine parts.text = parts.taken := by
  rw [text, ofLine_append h.front, h.passages.ofLine_passagesText]
  rfl

-----------------------------------------------------------------------------------------
-- The parts of every line
-----------------------------------------------------------------------------------------

/-- Every line has parts, by induction on how it is taken apart. -/
theorem exists_parts (line : List Char)
    : ∃ parts : Parts, parts.WellFormed ∧ parts.text = line := by
  fun_induction ofLine line with
  | case1 => exact ⟨⟨[], []⟩, ⟨List.forall_mem_nil _, .none⟩, rfl⟩
  | case2 text =>
      exact ⟨⟨[], [⟨';' :: text, []⟩]⟩, ⟨List.forall_mem_nil _, .toEnd text⟩,
        by simp [Parts.text, passagesText]⟩
  | case3 text after ih =>
      rcases exists_split text with inside | ⟨front, rest, inside, rfl⟩
      · exact ⟨⟨[], [⟨'(' :: text, []⟩]⟩, ⟨List.forall_mem_nil _, .unclosed text inside⟩,
          by simp [Parts.text, passagesText]⟩
      · rw [splitParenthesis_closed inside] at ih
        obtain ⟨parts, well, same⟩ := ih
        refine ⟨⟨[], ⟨'(' :: (front ++ [')']), parts.front⟩ :: parts.passages⟩,
          ⟨List.forall_mem_nil _, .closed front inside well.front well.passages⟩, ?_⟩
        rw [Parts.text, passagesText_cons, ← Parts.text, same]
        simp
  | case4 c text semicolon parenthesis after ih =>
      obtain ⟨parts, well, rfl⟩ := ih
      exact ⟨⟨c :: parts.front, parts.passages⟩,
        ⟨List.forall_mem_cons.2 ⟨⟨semicolon, parenthesis⟩, well.front⟩, well.passages⟩, rfl⟩

/-- Code ends where a comment starts, so it is known from the text. -/
theorem code_unique {passages passages' : List Passage} (isCode : ∀ c ∈ code, IsCode c)
    (isCode' : ∀ c ∈ code', IsCode c) (h : InLine passages) (h' : InLine passages')
    (same : code ++ passagesText passages = code' ++ passagesText passages')
    : code = code' ∧ passagesText passages = passagesText passages' := by
  have front : code = code' := by
    have taken := congrArg (List.takeWhile fun c => decide (IsCode c)) same
    rwa [takeWhile_run (by simpa using isCode) h.stops,
      takeWhile_run (by simpa using isCode') h'.stops] at taken
  exact ⟨front, List.append_cancel_left (front ▸ same)⟩

/-- A comment ends with the first closing parenthesis, so it is known from the text. -/
theorem closed_unique {text' rest' : List Char} (inside : ')' ∉ text) (inside' : ')' ∉ text')
    (same : text ++ ')' :: rest = text' ++ ')' :: rest') : text = text' ∧ rest = rest' := by
  have split := congrArg splitParenthesis same
  rw [splitParenthesis_closed inside, splitParenthesis_closed inside'] at split
  obtain ⟨texts, rests⟩ := Prod.mk.inj split
  exact ⟨List.append_cancel_right texts, rests⟩

/-- Passages are known from their text, by induction on those that stand in the one line. -/
theorem InLine.unique (h : InLine passages) {passages' : List Passage} (h' : InLine passages')
    (same : passagesText passages = passagesText passages') : passages = passages' := by
  induction h generalizing passages' with
  | none =>
      cases h' with
      | none => rfl
      | toEnd | unclosed | closed => simp [passagesText] at same
  | toEnd text =>
      cases h' with
      | none => simp [passagesText] at same
      | toEnd text' => simpa [passagesText] using same
      | unclosed | closed => simp [passagesText] at same
  | unclosed text inside =>
      cases h' with
      | none | toEnd => simp [passagesText] at same
      | unclosed text' inside' => simpa [passagesText] using same
      | @closed text' inside' code' isCode' passages' after' =>
          have tails : text = text' ++ ')' :: (code' ++ passagesText passages') := by
            simpa [passagesText] using same
          simp [tails] at inside
  | @closed text inside code isCode passages after ih =>
      cases h' with
      | none | toEnd => simp [passagesText] at same
      | unclosed text' inside' =>
          have tails : text ++ ')' :: (code ++ passagesText passages) = text' := by
            simpa [passagesText] using same
          simp [← tails] at inside'
      | @closed text' inside' code' isCode' passages' after' =>
          have tails : text ++ ')' :: (code ++ passagesText passages)
              = text' ++ ')' :: (code' ++ passagesText passages') := by
            simpa [passagesText] using same
          obtain ⟨rfl, rests⟩ := closed_unique inside inside' tails
          obtain ⟨rfl, others⟩ := code_unique isCode isCode' after after' rests
          rw [ih after' others]

theorem Parts.WellFormed.unique (h : parts.WellFormed) (h' : other.WellFormed)
    (same : parts.text = other.text) : parts = other := by
  obtain ⟨fronts, rests⟩ := code_unique h.front h'.front h.passages h'.passages same
  have passages := h.passages.unique h'.passages rests
  cases parts
  cases other
  simp_all

-----------------------------------------------------------------------------------------
-- Offsets
-----------------------------------------------------------------------------------------

theorem dropWhile_indexed (offset : Nat) (p : Char → Bool) (text : List Char)
    : (indexed offset text).dropWhile (fun entry => p entry.2)
      = indexed (offset + byteLength (text.takeWhile p)) (text.dropWhile p) := by
  induction text generalizing offset with
  | nil => rfl
  | cons c text ih =>
      rw [indexed, List.dropWhile_cons, List.takeWhile_cons, List.dropWhile_cons]
      split
      · rw [ih]
        simp [byteLength, Nat.add_assoc]
      · simp [byteLength, indexed]

/-- Without a closing parenthesis the slice goes to the end of the line. -/
theorem scanOffsets?_unclosed (inside : ')' ∉ text) (before : List Char)
    : scanOffsets? (before ++ '(' :: text) (indexed (byteLength before) ('(' :: text))
      = some ⟨[' '], ['(' :: text]⟩ := by
  have slice := slice?_byteLength before ('(' :: text) []
  rw [List.append_nil, ← byteLength_append] at slice
  rw [indexed, scanOffsets?, dropWhile_indexed (byteLength before + '('.utf8Size) (· ≠ ')'),
    dropWhile_all (all_open inside)]
  simp [indexed, endOffset, slice, scanOffsets?]

/-- The slice goes to the first closing parenthesis, and the pass goes on after it. -/
theorem scanOffsets?_closed {front : List Char} (inside : ')' ∉ front) (before rest : List Char)
    : scanOffsets? (before ++ '(' :: (front ++ ')' :: rest))
          (indexed (byteLength before) ('(' :: (front ++ ')' :: rest)))
      = (scanOffsets? (before ++ '(' :: (front ++ [')']) ++ rest)
            (indexed (byteLength (before ++ '(' :: (front ++ [')']))) rest)).map
          fun after => ⟨' ' :: after.code, ('(' :: (front ++ [')'])) :: after.comments⟩ := by
  have whole : before ++ '(' :: (front ++ ')' :: rest)
      = before ++ '(' :: (front ++ [')']) ++ rest := by simp
  have closing : ')'.utf8Size = 1 := rfl
  have stop : byteLength before + '('.utf8Size + byteLength front + 1
      = byteLength (before ++ '(' :: (front ++ [')'])) := by
    have last : byteLength [')'] = 1 := rfl
    rw [byteLength_append, byteLength, byteLength_append]
    omega
  have slice := slice?_byteLength before ('(' :: (front ++ [')'])) rest
  rw [← byteLength_append] at slice
  rw [indexed, scanOffsets?, dropWhile_indexed (byteLength before + '('.utf8Size) (· ≠ ')'),
    takeWhile_run (all_open inside) (stops_closing rest),
    dropWhile_run (all_open inside) (stops_closing rest), whole]
  simp only [indexed, endOffset, List.drop_one, List.tail_cons]
  rw [closing, stop, slice]
  generalize scanOffsets? _ _ = after
  cases after <;> rfl

/-- From every character on, the pass with offsets finds what the line is taken apart into there. By
induction on how the rest of the line is taken apart.
-/
theorem scanOffsets?_indexed (before text : List Char)
    : scanOffsets? (before ++ text) (indexed (byteLength before) text) = some (ofLine text) := by
  fun_induction ofLine text generalizing before with
  | case1 => simp [indexed, scanOffsets?]
  | case2 text =>
      have slice := slice?_byteLength before (';' :: text) []
      rw [List.append_nil, ← byteLength_append] at slice
      simp [indexed, scanOffsets?, slice]
  | case3 text after ih =>
      rcases exists_split text with inside | ⟨front, rest, inside, rfl⟩
      · have none : after = ofLine [] := by simp only [after, splitParenthesis_unclosed inside]
        rw [scanOffsets?_unclosed inside, none, splitParenthesis_unclosed inside, ofLine]
      · have there : after = ofLine rest := by simp only [after, splitParenthesis_closed inside]
        rw [splitParenthesis_closed inside] at ih
        rw [scanOffsets?_closed inside, ih, there, splitParenthesis_closed inside]
        rfl
  | case4 c text semicolon parenthesis after ih =>
      have later := ih (before ++ [c])
      have single : byteLength [c] = c.utf8Size := by simp [byteLength]
      rw [byteLength_append, single, List.append_assoc, List.singleton_append] at later
      rw [indexed, scanOffsets?.eq_4 _ _ _ _ semicolon parenthesis, later]
      rfl

theorem ofLineByOffsets?_eq (line : List Char) : ofLineByOffsets? line = some (ofLine line) :=
  scanOffsets?_indexed [] line

-----------------------------------------------------------------------------------------
-- Lines and their parts
-----------------------------------------------------------------------------------------

/-- Lines that differ at most inside their comments: the code around the comments is the same. -/
def SameOutside (line other : List Char) : Prop :=
  ∃ parts parts' : Parts, parts.WellFormed ∧ parts'.WellFormed
    ∧ parts.text = line ∧ parts'.text = other
    ∧ parts.front = parts'.front
    ∧ parts.passages.map Passage.code = parts'.passages.map Passage.code

theorem Parts.taken_code (parts : Parts)
    : parts.taken.code
      = parts.front ++ (parts.passages.map Passage.code).flatMap fun code => ' ' :: code := by
  simp [taken, List.flatMap_map]

theorem SameOutside.code_eq {line other : List Char} (h : SameOutside line other)
    : (ofLine other).code = (ofLine line).code := by
  obtain ⟨parts, parts', well, well', rfl, rfl, fronts, codes⟩ := h
  rw [well.ofLine_text, well'.ofLine_text, Parts.taken_code, Parts.taken_code, fronts, codes]

/-- Code on its own is taken apart into itself. -/
theorem ofLine_of_isCode (isCode : ∀ c ∈ code, IsCode c) : ofLine code = ⟨code, []⟩ := by
  have whole : ofLine (code ++ []) = ⟨code ++ (ofLine []).code, (ofLine []).comments⟩ :=
    ofLine_append isCode
  simpa [ofLine] using whole

/-- Every line falls into parts in one way, and it is taken apart into these parts, without a loss.
The slices between offsets that stand for comments all exist and are the comments of the parts. The
code is comment-free: it is left as it is when it is taken apart again, and it does not depend on
what stands inside the comments.
-/
theorem ofLine_parts (line : List Char)
    : (∃ parts : Parts, parts.WellFormed ∧ parts.text = line ∧ ofLine line = parts.taken
        ∧ ∀ other : Parts, other.WellFormed → other.text = line → other = parts)
      ∧ ofLineByOffsets? line = some (ofLine line)
      ∧ (∀ c ∈ (ofLine line).code, c ≠ ';' ∧ c ≠ '(')
      ∧ ofLine (ofLine line).code = ⟨(ofLine line).code, []⟩
      ∧ ∀ other, SameOutside line other → (ofLine other).code = (ofLine line).code := by
  have isCode := isCode_code line
  refine ⟨?_, ofLineByOffsets?_eq line, isCode, ofLine_of_isCode isCode, fun other h => h.code_eq⟩
  obtain ⟨parts, well, rfl⟩ := exists_parts line
  exact ⟨parts, well, rfl, well.ofLine_text, fun other well' same => well'.unique well same⟩

/-- Comments that change their kinds, with a delimiter of the other kind inside. -/
theorem ofLine_parts_mixed
    : SameOutside "G1(a)X1;b".toList "G1(c;d)X1(e".toList
      ∧ (ofLine "G1(c;d)X1(e".toList).code = (ofLine "G1(a)X1;b".toList).code := by
  have front : ∀ c ∈ ['G', '1'], IsCode c := by simp [IsCode]
  have code : ∀ c ∈ ['X', '1'], IsCode c := by simp [IsCode]
  have closed : Parts.WellFormed
      ⟨['G', '1'], [⟨'(' :: (['a'] ++ [')']), ['X', '1']⟩, ⟨[';', 'b'], []⟩]⟩ :=
    ⟨front, .closed ['a'] (by decide) code (.toEnd ['b'])⟩
  have unclosed : Parts.WellFormed
      ⟨['G', '1'], [⟨'(' :: (['c', ';', 'd'] ++ [')']), ['X', '1']⟩, ⟨['(', 'e'], []⟩]⟩ :=
    ⟨front, .closed ['c', ';', 'd'] (by decide) code (.unclosed ['e'] (by decide))⟩
  have outside : SameOutside "G1(a)X1;b".toList "G1(c;d)X1(e".toList :=
    ⟨_, _, closed, unclosed, by simp [Parts.text, passagesText], by simp [Parts.text, passagesText],
      rfl, rfl⟩
  obtain ⟨_, _, _, _, same⟩ := ofLine_parts "G1(a)X1;b".toList
  exact ⟨outside, same _ outside⟩

end Gcode.CommentedLine
