import Gcode.Proofs.Letter
import Gcode.Proofs.Text.Blank
import Gcode.Proofs.Word.Scan
import Mathlib.Data.List.TakeWhile

/-! The scan of a text loses nothing.
The text falls into pieces, one for each word, and what is left where the scan ends; the answers
of the scan are the words in order, then how it ends, and then nothing.
-/

namespace Gcode

open Text

-----------------------------------------------------------------------------------------
-- Pieces
-----------------------------------------------------------------------------------------

/-- The text of one word: blanks, the character of the letter, and the value text. -/
structure Piece where
  blanks : List Char
  mark : Char
  source : List Char
  word : Word

namespace Piece

def text (piece : Piece) : List Char :=
  piece.blanks ++ piece.mark :: piece.source

/-- A piece is read as its word where a text comes after it: only blanks come before the letter,
which is written in either case and defined by the dialect, its rule takes the value text and
nothing of the text after it, and the value is read from the value text.
-/
structure ReadsBefore (settings : Settings) (after : List Char) (piece : Piece) : Prop where
  blanks : ∀ c ∈ piece.blanks, isBlank c
  mark : piece.mark = piece.word.letter.char ∨ piece.mark = piece.word.letter.char.toLower
  rule : settings.dialect.rules piece.word.letter = some piece.word.rule
  matched : piece.word.rule.match? (piece.source ++ after) = some (piece.source, after)
  value : piece.word.rule.read? piece.source = some piece.word.value
  settings : piece.word.dialect = settings.dialect ∧ piece.word.xyDecimals = settings.xyDecimals

/-- Pieces that are read one after the other, with a text after them. -/
def AllRead (settings : Settings) (rest : List Char) : List Piece → Prop
  | [] => True
  | piece :: pieces =>
      piece.ReadsBefore settings (pieces.flatMap text ++ rest) ∧ AllRead settings rest pieces

end Piece

/-- How a scan ends at a text: at blanks without an error, at a character that is no letter of the
dialect with the text left over, or at a letter without a value text or a value.
-/
inductive Ending (settings : Settings) (text : List Char) : Option Error → Prop where
  | blanks (all : ∀ c ∈ text, isBlank c) : Ending settings text none
  | leftover {c rest} (start : text.dropWhile isBlank = c :: rest)
    (other : ∀ letter rule, settings.dialect.rules letter = some rule
      → c ≠ letter.char ∧ c ≠ letter.char.toLower)
    : Ending settings text (some (.leftoverText text))
  | unmatched {c rest letter rule} (start : text.dropWhile isBlank = c :: rest)
    (mark : c = letter.char ∨ c = letter.char.toLower)
    (defined : settings.dialect.rules letter = some rule)
    (unmatched : rule.match? rest = none)
    : Ending settings text (some (.wordValueInvalid letter.char rest))
  | unreadable {c rest letter rule source after} (start : text.dropWhile isBlank = c :: rest)
    (mark : c = letter.char ∨ c = letter.char.toLower)
    (defined : settings.dialect.rules letter = some rule)
    (matched : rule.match? rest = some (source, after))
    (unreadable : rule.read? source = none)
    : Ending settings text (some (.wordValueInvalid letter.char source))

-----------------------------------------------------------------------------------------
-- One step
-----------------------------------------------------------------------------------------

variable {settings : Settings} {text rest : List Char}

theorem nextLetter?_eq_some {dialect : Dialect} {letter : Letter} {rule : Rule}
    : dialect.nextLetter? text = some (letter, rule, rest)
      ↔ ∃ c, text.dropWhile isBlank = c :: rest
          ∧ (c = letter.char ∨ c = letter.char.toLower) ∧ dialect.rules letter = some rule := by
  rw [Dialect.nextLetter?, trimStart]
  cases text.dropWhile isBlank with
  | nil => simp
  | cons c tail =>
      simp only [Dialect.rule?, Option.bind_eq_bind, Option.map_eq_some_iff,
        Option.bind_eq_some_iff, Prod.exists]
      constructor
      · intro given
        obtain ⟨letter', rule', ⟨_, hl, _, hr, same⟩, same'⟩ := given
        cases same
        cases same'
        exact ⟨c, rfl, Letter.ofChar?_eq_some_iff.1 hl, hr⟩
      · intro given
        obtain ⟨d, same, mark, hr⟩ := given
        cases same
        exact ⟨letter, rule, ⟨letter, Letter.ofChar?_eq_some_iff.2 mark, rule, hr, rfl⟩, rfl⟩

theorem takeWhile_append_start {c : Char} (start : text.dropWhile isBlank = c :: rest)
    : text.takeWhile isBlank ++ c :: rest = text := by
  rw [← start, List.takeWhile_append_dropWhile]

/-- A step that takes a word takes its piece from the text. -/
theorem Step.take_eq_word {word : Word} {after : List Char}
    (h : Step.take settings text = .word word after)
    : ∃ piece : Piece,
        piece.word = word ∧ piece.text ++ after = text ∧ piece.ReadsBefore settings after := by
  unfold take at h
  split at h
  · split at h <;> contradiction
  · rename_i letter rule tail hl
    obtain ⟨c, start, mark, hr⟩ := nextLetter?_eq_some.1 hl
    split at h
    · contradiction
    · rename_i source rest hm
      unfold Word.ofMatch at h
      cases hv : rule.read? source with
      | none => simp [hv] at h
      | some value =>
          simp only [hv] at h
          cases h
          have split := Rule.match?_append hm
          refine ⟨⟨text.takeWhile isBlank, c, source, _⟩, rfl, ?_, ?_⟩
          · simp only [Piece.text, List.append_assoc, List.cons_append]
            rw [split, takeWhile_append_start start]
          · refine ⟨fun c => List.mem_takeWhile_imp, mark, hr, ?_, hv, rfl, rfl⟩
            simpa [split] using hm

/-- A text value is its value text without the blanks around it. -/
theorem Value.eq_trim_of_read? {kind : ValueKind} {source t : List Char}
    (h : Value.read? kind source = some (.text t)) : t = trim source := by
  cases kind with
  | integer =>
      obtain ⟨n, _, same⟩ := Option.map_eq_some_iff.1 h
      cases same
  | real =>
      obtain ⟨x, _, finite⟩ := Option.bind_eq_some_iff.1 h
      unfold finiteReal? at finite
      split at finite <;> cases finite
  | text =>
      cases h
      rfl

/-- The text values of a text have no characters that the text does not have. -/
theorem mem_of_readWords {words : List Word} {t : List Char} {c : Char}
    (h : readWords settings text = .ok words) {word : Word} (member : word ∈ words)
    (value : word.value = .text t) (inside : c ∈ t) : c ∈ text := by
  induction words generalizing text with
  | nil => contradiction
  | cons first words ih =>
      obtain ⟨rest, step, more⟩ := take_of_readWords h
      obtain ⟨piece, rfl, taken, reads⟩ := Step.take_eq_word step
      rw [← taken]
      rcases List.mem_cons.1 member with rfl | member
      · rw [Value.eq_trim_of_read? (reads.value.trans (congrArg some value))] at inside
        simp [Piece.text, mem_of_mem_trim inside]
      · exact List.mem_append_right _ (ih more member)

theorem Step.take_eq_stop (h : Step.take settings text = .stop) : Ending settings text none := by
  unfold take at h
  split at h
  · split at h
    · rename_i blanks
      exact .blanks (List.dropWhile_eq_nil_iff.1 (List.isEmpty_iff.1 blanks))
    · contradiction
  · split at h
    · contradiction
    · split at h <;> contradiction

theorem Step.take_eq_fail {error : Error} (h : Step.take settings text = .fail error rest)
    : Ending settings text (some error) := by
  unfold take at h
  split at h
  · rename_i none
    split at h
    · contradiction
    · rename_i some
      cases h
      obtain ⟨c, rest, start⟩ := List.exists_cons_of_ne_nil (mt List.isEmpty_iff.2 some)
      refine .leftover start ?_
      intro letter rule defined
      have other := fun mark =>
        (Option.eq_none_iff_forall_ne_some.1 none) _ (nextLetter?_eq_some.2 ⟨c, start, mark, defined⟩)
      exact not_or.1 other
  · rename_i letter rule tail hl
    obtain ⟨c, start, mark, defined⟩ := nextLetter?_eq_some.1 hl
    split at h
    · rename_i unmatched
      cases h
      exact .unmatched start mark defined unmatched
    · rename_i source after matched
      unfold Word.ofMatch at h
      cases hv : rule.read? source with
      | none =>
          simp only [hv] at h
          cases h
          exact .unreadable start mark defined matched hv
      | some value => simp [hv] at h

/-- How a scan ends with a step, if it does. -/
def Step.ending? : Step → Option (Option Error)
  | .word .. => none
  | .stop => some none
  | .fail error _ => some (some error)

/-- A text at which a scan ends is one at which the next step ends it. -/
theorem Ending.ending?_take {error : Option Error} (h : Ending settings text error)
    : (Step.take settings text).ending? = some error := by
  cases h with
  | blanks all =>
      have start : text.dropWhile isBlank = [] := List.dropWhile_eq_nil_iff.2 all
      have none : settings.dialect.nextLetter? text = none := by
        simp [Dialect.nextLetter?, trimStart, start]
      simp [Step.take, none, trimStart, start, Step.ending?]
  | leftover start other =>
      have none : settings.dialect.nextLetter? text = none := by
        refine Option.eq_none_iff_forall_ne_some.2 ?_
        rintro ⟨letter, rule, rest⟩ found
        obtain ⟨c, start', mark, defined⟩ := nextLetter?_eq_some.1 found
        obtain ⟨rfl, rfl⟩ := List.cons.inj (start.symm.trans start')
        exact absurd mark (not_or.2 (other letter rule defined))
      simp [Step.take, none, trimStart, start, Step.ending?]
  | unmatched start mark defined unmatched =>
      have found := nextLetter?_eq_some.2 ⟨_, start, mark, defined⟩
      simp [Step.take, found, unmatched, Step.ending?]
  | unreadable start mark defined matched unreadable =>
      have found := nextLetter?_eq_some.2 ⟨_, start, mark, defined⟩
      simp [Step.take, found, matched, Word.ofMatch, unreadable, Step.ending?]

/-- A scan stops at blanks alone. -/
theorem Step.take_eq_stop_iff : Step.take settings text = .stop ↔ ∀ c ∈ text, isBlank c := by
  constructor
  · intro stop
    cases Step.take_eq_stop stop
    assumption
  · intro blanks
    have ended := (Ending.blanks blanks : Ending settings text none).ending?_take
    cases step : Step.take settings text with
    | stop => rfl
    | fail error rest => simp [step, ending?] at ended
    | word word rest => simp [step, ending?] at ended

/-- A text that is read without words is blank. -/
theorem blank_of_readWords_nil (h : readWords settings text = .ok []) : ∀ c ∈ text, isBlank c := by
  cases step : Step.take settings text with
  | stop => exact Step.take_eq_stop_iff.1 step
  | fail error rest =>
      rw [readWords_of_fail step] at h
      cases h
  | word word rest =>
      obtain ⟨_, _, more⟩ := (readWords_eq_ok_of_word step).1 h
      cases more

/-- A scan ends in exactly one way, which the next step tells. -/
theorem Ending.unique {error other : Option Error} (h : Ending settings text error)
    (h' : Ending settings text other) : error = other :=
  Option.some.inj (h.ending?_take.symm.trans h'.ending?_take)

-----------------------------------------------------------------------------------------
-- The answers of a scan
-----------------------------------------------------------------------------------------

namespace Scan

/-- The scan after a number of answers. -/
def after (scan : Scan) : Nat → Scan
  | 0 => scan
  | count + 1 => scan.next.2.after count

/-- The answer after a number of answers. -/
def answer (scan : Scan) (count : Nat) : Option (Except Error Word) :=
  (scan.after count).next.1

/-- A scan that has ended says nothing more. -/
theorem answer_of_finished {scan : Scan} (finished : scan.finished = true) (count : Nat)
    : scan.answer count = none := by
  have next : scan.next = (none, scan) := by simp [next, finished]
  induction count with
  | zero => simp [answer, after, next]
  | succ count ih =>
      simp only [answer, after, next] at ih ⊢
      exact ih

/-- The scan of a text from its start. -/
def start (settings : Settings) (text : List Char) : Scan where
  settings := settings
  rest := text

theorem next_of_word {word : Word} (h : Step.take settings text = .word word rest)
    : (start settings text).next = (some (.ok word), start settings rest) := by
  simp [next, start, h]

/-- A scan whose next answer ends it says nothing after that. -/
theorem answers_of_next {scan ended : Scan} {said : Option (Except Error Word)}
    (next : scan.next = (said, ended)) (finished : ended.finished = true)
    : scan.answer 0 = said ∧ ∀ count, scan.answer (count + 1) = none := by
  refine ⟨by simp [answer, after, next], ?_⟩
  intro count
  have nothing : scan.next.2.answer count = none := answer_of_finished (by rw [next, finished]) count
  exact nothing

theorem answers_of_stop (h : Step.take settings text = .stop)
    : (start settings text).answer 0 = none
      ∧ ∀ count, (start settings text).answer (count + 1) = none := by
  have next : (start settings text).next
      = (none, { settings, rest := text, finished := true }) := by
    simp [next, start, h]
  exact answers_of_next next rfl

theorem answers_of_fail {error : Error} (h : Step.take settings text = .fail error rest)
    : (start settings text).answer 0 = some (.error error)
      ∧ ∀ count, (start settings text).answer (count + 1) = none := by
  have next : (start settings text).next
      = (some (.error error), { settings, rest, finished := true }) := by
    simp [next, start, h]
  exact answers_of_next next rfl

end Scan

/-- A text falls into pieces and a rest, and a scan of it answers with the words of the pieces,
then with the way it ends at the rest, and then with nothing. By induction on the scan: each step
takes the piece of its word from the text, and a step that takes no word is the last one.
-/
theorem scan_lossless (settings : Settings) (text : List Char)
    : ∃ pieces rest error,
        text = pieces.flatMap Piece.text ++ rest
        ∧ Piece.AllRead settings rest pieces
        ∧ Ending settings rest error
        ∧ (∀ other, Ending settings rest other → other = error)
        ∧ pieces.length ≤ text.length
        ∧ scanWords settings text = (pieces.map Piece.word, error)
        ∧ (∀ count (inside : count < pieces.length),
            (Scan.start settings text).answer count = some (.ok pieces[count].word))
        ∧ (Scan.start settings text).answer pieces.length = error.map .error
        ∧ ∀ count > pieces.length, (Scan.start settings text).answer count = none := by
  fun_induction scanWords settings text with
  | case1 text stop =>
      have ending := Step.take_eq_stop stop
      obtain ⟨first, later⟩ := Scan.answers_of_stop stop
      refine ⟨[], text, none, rfl, trivial, ending, fun other h => h.unique ending,
        Nat.zero_le _, rfl, by simp, first, ?_⟩
      intro count ended
      obtain ⟨count, rfl⟩ := Nat.exists_eq_succ_of_ne_zero (Nat.ne_of_gt ended)
      exact later count
  | case2 text error rest fails =>
      have ending := Step.take_eq_fail fails
      obtain ⟨first, later⟩ := Scan.answers_of_fail fails
      refine ⟨[], text, some error, rfl, trivial, ending, fun other h => h.unique ending,
        Nat.zero_le _, rfl, by simp, first, ?_⟩
      intro count ended
      obtain ⟨count, rfl⟩ := Nat.exists_eq_succ_of_ne_zero (Nat.ne_of_gt ended)
      exact later count
  | case3 text word after found words error more ih =>
      obtain ⟨pieces, rest, error, split, read, ending, unique, short, same, inside, last, ended⟩ := ih
      obtain ⟨piece, rfl, taken, reads⟩ := Step.take_eq_word found
      have next := Scan.next_of_word found
      have shift (count : Nat) : (Scan.start settings text).answer (count + 1)
          = (Scan.start settings after).answer count := by
        simp [Scan.answer, Scan.after, next]
      rw [split] at taken reads
      refine ⟨piece :: pieces, rest, error, ?_, ⟨reads, read⟩, ending, unique, ?_, ?_, ?_, ?_, ?_⟩
      · simp [← taken]
      · have := Step.take_length found
        simp only [List.length_cons]
        omega
      · rw [more] at same
        cases same
        rfl
      · intro count bound
        cases count with
        | zero => simp [Scan.answer, Scan.after, next]
        | succ count =>
            rw [shift]
            exact inside count (Nat.lt_of_succ_lt_succ bound)
      · exact (shift pieces.length).trans last
      · intro count bound
        cases count with
        | zero => contradiction
        | succ count =>
            rw [shift]
            exact ended count (Nat.lt_of_succ_lt_succ bound)

end Gcode
