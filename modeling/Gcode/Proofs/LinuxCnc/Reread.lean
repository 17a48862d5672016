import Gcode.Proofs.LinuxCnc.Canonical
import Gcode.Proofs.LinuxCnc.Scanner
import Gcode.Proofs.Word.Lossless

/-! Words of the built-in dialect, read from spaced text, written and read again.
Each word that is read from spaced text has a value that its class can have, and only the last
word of a text can be a name. So the canonical texts of words, with a space between them, read as
the words again.
-/

namespace Gcode.LinuxCnc

open Form Number Text

-----------------------------------------------------------------------------------------
-- Values that are read
-----------------------------------------------------------------------------------------

theorem isFinite_of_realValue? {source : List Char} {value : Value}
    (h : realValue? source = some value)
    : AsciiDigits source ∧ (nearestReal source).isFinite ∧ value = .real (nearestReal source) := by
  unfold realValue? at h
  split at h
  · rename_i both
    exact ⟨both.1, both.2, (Option.some.inj h).symm⟩
  · contradiction

theorem bound_of_integerValue? {source : List Char} {value : Value}
    (h : integerValue? source = some value)
    : digitsValue source < 2 ^ 63 ∧ value = .integer (Int64.ofInt (digitsValue source)) := by
  unfold integerValue? at h
  by_cases fits : AsciiDigits source ∧ digitsValue source < 2 ^ 63
  · rw [if_pos fits] at h
    exact ⟨fits.2, (Option.some.inj h).symm⟩
  · rw [if_neg fits] at h
    cases h

/-- A code text denotes a whole number of tenths. -/
theorem isCode_nearestReal {source : List Char} (member : source ∈ code)
    (ascii : AsciiDigits source) (finite : (nearestReal source).isFinite)
    : (nearestReal source).IsCode := by
  refine ⟨finite, ?_⟩
  rw [← toBinary64_numeral]
  obtain ⟨blanks, hb, _, ⟨whole, hw, tail, ht, rfl⟩, rfl⟩ := member
  have digits : ∀ c ∈ whole, c.isDigit := fun c inside =>
    ascii c (by simp [inside]) ((mem_several.1 hw).2 c inside)
  obtain ⟨marks, points, value, negative⟩ := of_front hb (.inl rfl) digits
  simp only [List.nil_append, List.not_mem_nil, decide_false] at marks points value negative
  rcases mem_optional.1 ht with rfl | ⟨_, ⟨c, hc, rfl⟩, _, ⟨d, hd, rfl⟩, rfl⟩
  · obtain ⟨hn, hneg⟩ := numeral_whole marks points
    refine ⟨ofDigits whole * 10, ?_⟩
    simp only [List.append_nil]
    rw [hn, hneg, value, negative]
    exact Numeral.toBinary64_congr false (Numeral.units_tenths _).symm
  · obtain rfl := beq_iff_eq.1 hc
    have digit : ∀ c ∈ [d], c.isDigit := by
      simpa using ascii d (by simp) hd
    obtain ⟨hn, hneg⟩ := numeral_point marks points digit (.inl rfl)
    refine ⟨ofDigits (whole ++ [d]), ?_⟩
    have regroup : blanks ++ (whole ++ ('.' :: [d])) = blanks ++ whole ++ '.' :: ([d] ++ []) := by
      simp
    change (numeral (blanks ++ (whole ++ ('.' :: [d])))).toBinary64
      (isNegative (significand (blanks ++ (whole ++ ('.' :: [d]))))) = _
    rw [regroup, hn, hneg, value, negative]
    rfl

/-- The value of a value text that is no name is one that its class can have. -/
theorem holds_of_numeric {class' : ValueClass} {text source after : List Char} {value : Value}
    (numeric : class' ≠ .name) (longest : LongestPrefix (class'.form text) text source after)
    (h : class'.value? source = some value) : class'.Holds value := by
  cases class' with
  | real =>
      obtain ⟨_, finite, rfl⟩ := isFinite_of_realValue? h
      exact .real finite
  | position =>
      obtain ⟨_, finite, rfl⟩ := isFinite_of_realValue? h
      exact .position finite
  | code =>
      obtain ⟨ascii, finite, rfl⟩ := isFinite_of_realValue? h
      exact .code (isCode_nearestReal longest.member ascii finite)
  | integer =>
      obtain ⟨bound, rfl⟩ := bound_of_integerValue? h
      have exact : (Int64.ofInt (digitsValue source)).toInt = digitsValue source :=
        Int64.toInt_ofInt_of_le (by omega) (by omega)
      exact .integer (by rw [exact]; exact Int.natCast_nonneg _)
  | tool =>
      cases h
      obtain ⟨blanks, hb, body, hm, rfl⟩ := longest.member
      obtain ⟨some, all⟩ := mem_several.1 hm
      have trimmed : trim (blanks ++ body) = body :=
        trim_append_of_solid hb fun c member => isBlank_of_isDecimalDigit (all c member)
      rw [trimmed]
      exact .tool some all
  | name => contradiction

/-- The value of a value text in spaced text is one that its class can have. -/
theorem holds_of_value? {class' : ValueClass} {text source after : List Char} {value : Value}
    (spaced : Spaced text) (longest : LongestPrefix (class'.form text) text source after)
    (h : class'.value? source = some value) : class'.Holds value := by
  by_cases isName : class' = .name
  · subst isName
    cases h
    obtain ⟨rfl, some, line⟩ := longest.member
    have parts := List.takeWhile_append_dropWhile (p := isBlank) (l := source)
    rw [trim_of_spaced spaced]
    refine .name (spaced.trimStart_ne_nil some) ?_ (stops_dropWhile _ _) ?_
    · intro feed
      exact line ((List.dropWhile_sublist _).subset feed)
    · rw [← parts] at spaced
      exact spaced.of_append
  · exact holds_of_numeric isName longest h

-----------------------------------------------------------------------------------------
-- Words that are read
-----------------------------------------------------------------------------------------

/-- A word of the built-in dialect with a value that its letter can have. -/
structure WellRead (xyDecimals : Precision) (word : Word) : Prop where
  eq : word = wordOf xyDecimals (word.letter, word.value)
  holds : (ValueClass.ofLetter word.letter).Holds word.value

/-- Words of which only the last one can be a name. -/
def NameLast (words : List Word) : Prop :=
  words.Pairwise fun word _ => ValueClass.ofLetter word.letter ≠ .name

section Reading

variable {xyDecimals : Precision} {verify : Bool} {text after : List Char} {word : Word}

/-- A word that is read has the rule of its letter, and its value text is the longest one there is.
-/
theorem piece_of_linuxCnc {piece : Piece}
    (reads : piece.ReadsBefore { xyDecimals, verify } after)
    : piece.word = wordOf xyDecimals (piece.word.letter, piece.word.value)
      ∧ LongestPrefix ((ValueClass.ofLetter piece.word.letter).form (piece.source ++ after))
          (piece.source ++ after) piece.source after
      ∧ (ValueClass.ofLetter piece.word.letter).value? piece.source = some piece.word.value := by
  have rule : ruleOf piece.word.letter = piece.word.rule :=
    Option.some.inj ((rules_eq_ruleOf _).symm.trans reads.rule)
  have longest := found_match? piece.word.letter (piece.source ++ after)
  rw [rule, reads.matched] at longest
  have value := read?_of_longestPrefix longest
  rw [rule, reads.value] at value
  refine ⟨?_, longest, value.symm⟩
  obtain ⟨dialect, places⟩ := reads.settings
  generalize piece.word = word at rule dialect places
  cases word
  simp_all [wordOf]

/-- A step over spaced text takes a word with a value of its class; nothing is left after a
name.
-/
theorem wellRead_of_take (spaced : Spaced text)
    (h : Step.take { xyDecimals, verify } text = .word word after)
    : WellRead xyDecimals word ∧ Spaced after
      ∧ (ValueClass.ofLetter word.letter = .name → after = []) := by
  obtain ⟨piece, rfl, rfl, reads⟩ := Step.take_eq_word h
  have spaced : Spaced (piece.mark :: piece.source ++ after) := by
    rw [Piece.text, List.append_assoc] at spaced
    exact spaced.of_append
  have rest : Spaced (piece.source ++ after) := spaced.of_cons
  obtain ⟨eq, longest, value⟩ := piece_of_linuxCnc reads
  refine ⟨⟨eq, holds_of_value? rest longest value⟩, rest.of_append, ?_⟩
  intro isName
  rw [isName] at longest
  have whole : piece.source = piece.source ++ after := longest.member.1
  simpa using whole

/-- The words of spaced text have values of their classes, and only the last one can be a name.
By induction on the words.
-/
theorem wellRead_of_readWords {words : List Word} (spaced : Spaced text)
    (h : readWords { xyDecimals, verify } text = .ok words)
    : (∀ word ∈ words, WellRead xyDecimals word) ∧ NameLast words := by
  induction words generalizing text with
  | nil => exact ⟨List.forall_mem_nil _, .nil⟩
  | cons word words ih =>
      obtain ⟨rest, step, more⟩ := take_of_readWords h
      obtain ⟨well, spacedRest, last⟩ := wellRead_of_take spaced step
      obtain ⟨all, names⟩ := ih spacedRest more
      refine ⟨List.forall_mem_cons.2 ⟨well, all⟩, List.pairwise_cons.2 ⟨?_, names⟩⟩
      -- a name leaves nothing to read another word from
      intro other member isName
      have stop : Step.take { xyDecimals, verify } rest = .stop := by
        rw [last isName]
        exact take_of_blanks xyDecimals verify rfl
      rw [readWords_of_stop stop] at more
      cases more
      contradiction

end Reading

-----------------------------------------------------------------------------------------
-- Canonical texts of words
-----------------------------------------------------------------------------------------

/-- The word that the canonical text of a word is read as. -/
def rereadWord (xyDecimals : Precision) (word : Word) : Word :=
  wordOf xyDecimals
    (word.letter, (ValueClass.ofLetter word.letter).reread xyDecimals word.value)

/-- The canonical texts of words, with single spaces between them. -/
def wordsText (words : List Word) : List Char :=
  [' '].intercalate (words.map Word.toText)

section Canonical

variable {xyDecimals : Precision} {verify : Bool} {text after : List Char} {word : Word}
  {words : List Word}

theorem WellRead.format_eq (h : WellRead xyDecimals word)
    : word.rule.format = (ValueClass.ofLetter word.letter).format := by
  rw [h.eq]
  exact format_ruleOf word.letter

theorem WellRead.toText_eq (h : WellRead xyDecimals word)
    : word.toText = word.letter.char
        :: (ValueClass.ofLetter word.letter).format.render word.value xyDecimals := by
  rw [h.eq, Word.toText, Word.valueText, wordOf, format_ruleOf]

theorem WellRead.toText_rereadWord (h : WellRead xyDecimals word)
    : (rereadWord xyDecimals word).toText = word.toText := by
  rw [h.toText_eq, Word.toText, Word.valueText, rereadWord, wordOf, format_ruleOf,
    render_reread xyDecimals h.holds]

/-- The canonical text of a word is taken whole, before a blank or the end of the text. -/
theorem WellRead.take_toText (h : WellRead xyDecimals word)
    (start : text.dropWhile isBlank = word.toText ++ after) (ends : Stops (!isBlank ·) after)
    (last : ValueClass.ofLetter word.letter = .name → after = [])
    : Step.take { xyDecimals, verify } text = .word (rereadWord xyDecimals word) after := by
  rw [h.toText_eq, List.cons_append] at start
  have mark : Letter.ofChar? word.letter.char = some word.letter :=
    Letter.ofChar?_eq_some_iff.2 (.inl rfl)
  have longest := longestPrefix_valueText xyDecimals h.holds ends last
  have taken : takeValue _ (ValueClass.ofLetter word.letter) = some (_, after) :=
    (found_takeValue _ _).unique longest
  have value := (read?_of_longestPrefix longest).symm.trans (read?_valueText xyDecimals h.holds)
  rw [take_of_letter xyDecimals verify start mark, taken]
  dsimp only
  rw [value]
  rfl

theorem wordsText_cons (word : Word) (words : List Word)
    : wordsText (word :: words)
      = word.toText ++ if words = [] then [] else ' ' :: wordsText words := by
  cases words <;> simp [wordsText, intercalate_cons]

theorem stops_wordsText (words : List Word) : Stops isBlank (wordsText words) := by
  cases words with
  | nil => exact stops_nil
  | cons word words =>
      rw [wordsText_cons, Word.toText, List.cons_append]
      exact stops_cons.2 word.letter.isBlank_char

/-- The canonical texts of words read as the words, by induction on the words: each text is taken
whole and the space after it is passed over.
-/
theorem readWords_wordsText (all : ∀ word ∈ words, WellRead xyDecimals word)
    (names : NameLast words) (start : text.dropWhile isBlank = wordsText words)
    : readWords { xyDecimals, verify } text = .ok (words.map (rereadWord xyDecimals)) := by
  induction words generalizing text with
  | nil => exact readWords_of_stop (take_of_blanks xyDecimals verify start)
  | cons word words ih =>
      obtain ⟨well, others⟩ := List.forall_mem_cons.1 all
      obtain ⟨last, names⟩ := List.pairwise_cons.1 names
      rw [wordsText_cons] at start
      obtain ⟨after, ha⟩ : ∃ after, after = if words = [] then [] else ' ' :: wordsText words :=
        ⟨_, rfl⟩
      rw [← ha] at start
      have ends : Stops (!isBlank ·) after := by
        rw [ha]
        split
        · exact stops_nil
        · exact stops_cons.2 rfl
      have alone : ValueClass.ofLetter word.letter = .name → after = [] := by
        intro isName
        cases words with
        | nil => simpa using ha
        | cons next words => exact (last next List.mem_cons_self isName).elim
      have rest : after.dropWhile isBlank = wordsText words := by
        rw [ha]
        split
        · rename_i none
          rw [none]
          rfl
        · rw [List.dropWhile_cons_of_pos rfl, dropWhile_of_stops (stops_wordsText words)]
      rw [readWords_of_word (well.take_toText start ends alone), ih others names rest]
      rfl

/-- The canonical texts of words are spaced. -/
theorem spaced_wordsText (all : ∀ word ∈ words, WellRead xyDecimals word)
    (names : NameLast words) : Spaced (wordsText words) := by
  induction words with
  | nil => trivial
  | cons word words ih =>
      obtain ⟨well, others⟩ := List.forall_mem_cons.1 all
      obtain ⟨last, names⟩ := List.pairwise_cons.1 names
      have later := ih others names
      rw [wordsText_cons, well.toText_eq]
      by_cases isName : ValueClass.ofLetter word.letter = .name
      · have none : words = [] := by
          cases words with
          | nil => rfl
          | cons next words => exact (last next List.mem_cons_self isName).elim
        have holds := well.holds
        rw [none, if_pos rfl, List.append_nil]
        rw [isName] at holds ⊢
        generalize word.value = value at holds
        cases holds with
        | name _ _ _ spaced => exact Spaced.cons word.letter.isBlank_char spaced
      · have solid := (valueText_mem xyDecimals well.holds isName []).2.solid
        have solid : ∀ c ∈ word.letter.char
            :: (ValueClass.ofLetter word.letter).format.render word.value xyDecimals,
            isBlank c = false :=
          List.forall_mem_cons.2 ⟨word.letter.isBlank_char, solid⟩
        split
        · rw [List.append_nil]
          exact spaced_of_solid solid
        · rename_i some
          refine Spaced.append solid ?_ (stops_wordsText words) later
          obtain ⟨next, more, rfl⟩ := List.exists_cons_of_ne_nil some
          rw [wordsText_cons, Word.toText]
          simp

end Canonical

end Gcode.LinuxCnc
