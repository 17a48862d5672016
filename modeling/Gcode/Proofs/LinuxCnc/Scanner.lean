import Gcode.Proofs.LinuxCnc.Grammar
import Gcode.Proofs.Word.Scan

/-! A scanner for the built-in dialect that knows nothing of patterns.
It takes value texts character by character and never goes back over a run. What it takes is the
longest prefix of the form, so it reads the words that the patterns read.
-/

namespace Gcode.LinuxCnc

open Form Number Text

-----------------------------------------------------------------------------------------
-- Taking value texts
-----------------------------------------------------------------------------------------

/-- Takes a text or nothing. -/
def takeOptional (take : Taker) : Taker :=
  .orElse take .stop

/-- Takes a sign, if there is one, and goes on. -/
def takeSign (next : Taker) : Taker :=
  .orElse (.one isSignChar next) next

/-- Takes digits, at least one, and goes on. -/
def takeDigits (next : Taker) : Taker :=
  .one isDecimalDigit (.many isDecimalDigit next)

def takeExponent : Taker :=
  .one isMark (takeSign (takeDigits .stop))

def takeScientific : Taker :=
  takeSign (takeDigits (takeOptional
    (.one isPoint (.many isDecimalDigit (takeOptional takeExponent)))))

def takePlain : Taker :=
  .many isBlank (takeSign (.orElse
    (takeDigits (takeOptional (.one isPoint (.many isDecimalDigit .stop))))
    (.one isPoint (takeDigits .stop))))

def takeNatural : Taker :=
  .many isBlank (takeDigits .stop)

def takeCode : Taker :=
  .many isBlank (takeDigits (takeOptional (.one isPoint (.one isDecimalDigit .stop))))

/-- Takes the value text of a class from the start of a text. -/
def takeValue (text : List Char) : ValueClass → Option (List Char × List Char)
  | .real | .position => if startsNumber text then takeScientific text else takePlain text
  | .code => takeCode text
  | .integer | .tool => takeNatural text
  | .name => if text = [] ∨ '\n' ∈ text then none else some (text, [])

section Takers

variable {take next : Taker} {form : Form}

theorem takeOptional_takes (h : take.Takes form) (some : [] ∉ form)
    : (takeOptional take).Takes (optional form) := by
  rw [optional_eq, add_comm]
  exact Taker.orElse_takes h Taker.stop_takes some (by simp [Language.mem_one])

theorem takeSign_takes (h : next.Takes form) (apart : ∀ c after, isSignChar c → c :: after ∉ form)
    : (takeSign next).Takes (optional sign * form) := by
  rw [optional_eq, add_mul, one_mul, add_comm]
  refine Taker.orElse_takes (Taker.one_takes h) h (by simp [sign]) ?_
  intro c after member after'
  exact apart c after' (cons_mem_one_mul.1 member).1

theorem takeDigits_takes (h : next.Takes form)
    (apart : ∀ c after, isDecimalDigit c → c :: after ∉ form)
    : (takeDigits next).Takes (digits * form) := by
  rw [LinuxCnc.digits, several, mul_assoc]
  exact Taker.one_takes (Taker.many_takes h apart)

theorem takeDigits_stop_takes : (takeDigits .stop).Takes digits := by
  have h := takeDigits_takes Taker.stop_takes (by simp [Language.mem_one])
  rwa [mul_one] at h

theorem many_stop_takes (p : Char → Bool) : (Taker.many p .stop).Takes (many p) := by
  have h := Taker.many_takes (p := p) Taker.stop_takes (by simp [Language.mem_one])
  rwa [mul_one] at h

theorem takeExponent_takes : takeExponent.Takes exponent := by
  refine Taker.one_takes (takeSign_takes takeDigits_stop_takes ?_)
  intro c after isSign
  simp [digits, of_isSignChar isSign]

theorem takeScientific_takes : takeScientific.Takes scientific := by
  have exponents : (takeOptional takeExponent).Takes (optional exponent) :=
    takeOptional_takes takeExponent_takes (by simp [exponent])
  have fractions : (takeOptional (.one isPoint (.many isDecimalDigit (takeOptional takeExponent)))).Takes
      fraction := by
    refine takeOptional_takes (Taker.one_takes (Taker.many_takes exponents ?_)) (by simp [point])
    intro c after digit
    simp [exponent, of_isDecimalDigit digit]
  refine takeSign_takes (takeDigits_takes fractions ?_) ?_
  · intro c after digit
    simp [fraction, point, of_isDecimalDigit digit]
  · intro c after isSign
    simp [digits, of_isSignChar isSign]

theorem takePlain_takes : takePlain.Takes plain := by
  -- without a point there are no more digits after the digits
  have same : decimal = digits * optional (point * many isDecimalDigit) + point * digits := by
    have absorbed : digits * many isDecimalDigit = digits := several_mul_many
    have left : digits * (optional point * many isDecimalDigit)
        = digits + digits * (point * many isDecimalDigit) := by
      rw [optional_eq, add_mul, one_mul, mul_add, absorbed]
    have right : digits * optional (point * many isDecimalDigit)
        = digits + digits * (point * many isDecimalDigit) := by
      rw [optional_eq, mul_add, mul_one]
    rw [decimal, left, right]
  rw [plain, same]
  have decimals : (takeOptional (.one isPoint (.many isDecimalDigit .stop))).Takes
      (optional (point * many isDecimalDigit)) :=
    takeOptional_takes (Taker.one_takes (many_stop_takes _)) (by simp [point])
  refine Taker.many_takes (takeSign_takes (Taker.orElse_takes (takeDigits_takes decimals ?_)
    (Taker.one_takes takeDigits_stop_takes) (by simp [digits]) ?_) ?_) ?_
  · intro c after digit
    simp [point, of_isDecimalDigit digit]
  · intro c after member after'
    have digit : isDecimalDigit c := (cons_mem_several_mul.1 member).1
    simp [point, of_isDecimalDigit digit]
  · intro c after isSign
    simp [Language.mem_add, digits, point, of_isSignChar isSign]
  · intro c after blank
    simp [mem_optional_mul, Language.mem_add, sign, digits, point, of_isBlank blank]

theorem takeNatural_takes : takeNatural.Takes natural := by
  refine Taker.many_takes takeDigits_stop_takes ?_
  intro c after blank
  simp [digits, of_isBlank blank]

theorem takeCode_takes : takeCode.Takes code := by
  have one : (Taker.one isDecimalDigit .stop).Takes (Form.one isDecimalDigit) := by
    have h := Taker.one_takes (p := isDecimalDigit) Taker.stop_takes
    rwa [mul_one] at h
  have decimals : (takeOptional (.one isPoint (.one isDecimalDigit .stop))).Takes
      (optional (point * Form.one isDecimalDigit)) :=
    takeOptional_takes (Taker.one_takes one) (by simp [point])
  refine Taker.many_takes (takeDigits_takes decimals ?_) ?_
  · intro c after digit
    simp [point, of_isDecimalDigit digit]
  · intro c after blank
    simp [digits, of_isBlank blank]

end Takers

/-- The scanner takes the longest prefix of the form of a class. -/
theorem found_takeValue (class' : ValueClass) (text : List Char)
    : Found (class'.form text) text (takeValue text class') := by
  have reals : Found (if startsNumber text then scientific else plain) text
      (if startsNumber text then takeScientific text else takePlain text) := by
    split
    · exact takeScientific_takes text
    · exact takePlain_takes text
  cases class' with
  | real => exact reals
  | position => exact reals
  | code => exact takeCode_takes text
  | integer => exact takeNatural_takes text
  | tool => exact takeNatural_takes text
  | name => exact found_name text

/-- The rule of a letter takes what the scanner takes. -/
theorem match?_eq_takeValue (letter : Letter) (text : List Char)
    : (ruleOf letter).match? text = takeValue text (ValueClass.ofLetter letter) :=
  (found_match? letter text).unique (found_takeValue _ text)

-----------------------------------------------------------------------------------------
-- Scanning texts
-----------------------------------------------------------------------------------------

/-- One step of the scanner: the letter and the value of the next word, and the text after it. -/
def scanWord (c : Char) (text : List Char) : Option ((Letter × Value) × List Char) := do
  let letter ← Letter.ofChar? c
  let (source, after) ← takeValue text (ValueClass.ofLetter letter)
  let value ← (ValueClass.ofLetter letter).value? source
  return ((letter, value), after)

theorem scanWord_length {c : Char} {text after : List Char} {word : Letter × Value}
    (h : scanWord c text = some (word, after)) : after.length ≤ text.length := by
  simp only [scanWord, Option.bind_eq_bind, Option.bind_eq_some_iff] at h
  obtain ⟨letter, _, ⟨source, rest⟩, found, value, _, same⟩ := h
  have split : source ++ rest = text := by
    have h := found_takeValue (ValueClass.ofLetter letter) text
    rw [found] at h
    exact h.split
  cases same
  simp [← split]

/-- The letters and values of a text, if all of it can be read. -/
def scanText (text : List Char) : Option (List (Letter × Value)) :=
  match _hd : text.dropWhile isBlank with
  | [] => some []
  | c :: rest =>
      match _hw : scanWord c rest with
      | none => none
      | some (word, after) => (scanText after).map (word :: ·)
termination_by text.length
decreasing_by
  have shorter := scanWord_length _hw
  have blanks := (List.dropWhile_sublist (l := text) isBlank).length_le
  rw [_hd, List.length_cons] at blanks
  omega

/-- The word of the built-in dialect with a letter and a value. -/
def wordOf (xyDecimals : Precision) (word : Letter × Value) : Word where
  letter := word.1
  value := word.2
  rule := ruleOf word.1
  dialect := .linuxCnc
  xyDecimals

section Scan

variable (xyDecimals : Precision) (verify : Bool) {text rest : List Char} {c : Char}

/-- A step at blanks alone stops. -/
theorem take_of_blanks (blanks : text.dropWhile isBlank = [])
    : Step.take { xyDecimals, verify } text = .stop := by
  simp [Step.take, Dialect.nextLetter?, trimStart, blanks]

/-- A step at a letter takes what the scanner takes, or fails with the letter. -/
theorem take_of_letter {letter : Letter} (start : text.dropWhile isBlank = c :: rest)
    (hl : Letter.ofChar? c = some letter)
    : Step.take { xyDecimals, verify } text
      = match takeValue rest (ValueClass.ofLetter letter) with
        | none => .fail (.wordValueInvalid letter.char rest) rest
        | some (source, after) =>
            match (ValueClass.ofLetter letter).value? source with
            | none => .fail (.wordValueInvalid letter.char source) rest
            | some value => .word (wordOf xyDecimals (letter, value)) after := by
  have next : Dialect.linuxCnc.nextLetter? text = some (letter, ruleOf letter, rest) := by
    simp [Dialect.nextLetter?, trimStart, start, Dialect.rule?, hl, rules_eq_ruleOf]
  rw [Step.take, next]
  dsimp only
  rw [match?_eq_takeValue]
  cases found : takeValue rest (ValueClass.ofLetter letter) with
  | none => rfl
  | some pair =>
      obtain ⟨source, after⟩ := pair
      have longest := found_takeValue (ValueClass.ofLetter letter) rest
      rw [found] at longest
      dsimp only
      rw [Word.ofMatch, read?_of_longestPrefix longest]
      cases (ValueClass.ofLetter letter).value? source <;> rfl

/-- A step at anything else fails and leaves the text over. -/
theorem take_of_other (start : text.dropWhile isBlank = c :: rest)
    (hl : Letter.ofChar? c = none)
    : Step.take { xyDecimals, verify } text = .fail (.leftoverText text) text := by
  simp [Step.take, Dialect.nextLetter?, trimStart, start, Dialect.rule?, hl]

/-- A step takes a word exactly at a letter with a value text that denotes a value. -/
theorem take_eq_word_iff {word : Word}
    : Step.take { xyDecimals, verify } text = .word word rest
      ↔ ∃ c after letter source value,
          text.dropWhile isBlank = c :: after
          ∧ Letter.ofChar? c = some letter
          ∧ takeValue after (ValueClass.ofLetter letter) = some (source, rest)
          ∧ (ValueClass.ofLetter letter).value? source = some value
          ∧ word = wordOf xyDecimals (letter, value) := by
  constructor
  · intro step
    cases start : text.dropWhile isBlank with
    | nil =>
        rw [take_of_blanks xyDecimals verify start] at step
        contradiction
    | cons c after =>
        cases found : Letter.ofChar? c with
        | none =>
            rw [take_of_other xyDecimals verify start found] at step
            contradiction
        | some letter =>
            rw [take_of_letter xyDecimals verify start found] at step
            split at step
            · contradiction
            · rename_i source rest' taken
              split at step
              · contradiction
              · rename_i value denotes
                cases step
                exact ⟨c, after, letter, source, value, rfl, found, taken, denotes, rfl⟩
  · intro given
    obtain ⟨c, after, letter, source, value, start, found, taken, denotes, rfl⟩ := given
    rw [take_of_letter xyDecimals verify start found, taken]
    dsimp only
    rw [denotes]

theorem take_of_scanWord {word : Letter × Value} {after : List Char}
    (start : text.dropWhile isBlank = c :: rest) (h : scanWord c rest = some (word, after))
    : Step.take { xyDecimals, verify } text = .word (wordOf xyDecimals word) after := by
  simp only [scanWord, Option.bind_eq_bind, Option.bind_eq_some_iff] at h
  obtain ⟨letter, hl, ⟨source, rest'⟩, found, value, hv, same⟩ := h
  cases same
  rw [take_of_letter xyDecimals verify start hl, found]
  dsimp only
  rw [hv]

theorem take_of_scanWord_eq_none (start : text.dropWhile isBlank = c :: rest)
    (h : scanWord c rest = none)
    : ∃ error left, Step.take { xyDecimals, verify } text = .fail error left := by
  cases hl : Letter.ofChar? c with
  | none => exact ⟨_, _, take_of_other xyDecimals verify start hl⟩
  | some letter =>
      rw [take_of_letter xyDecimals verify start hl]
      cases found : takeValue rest (ValueClass.ofLetter letter) with
      | none => exact ⟨_, _, rfl⟩
      | some pair =>
          obtain ⟨source, after⟩ := pair
          dsimp only
          cases hv : (ValueClass.ofLetter letter).value? source with
          | none => exact ⟨_, _, rfl⟩
          | some value => simp [scanWord, hl, found, hv] at h

/-- The words of a text are those that the scanner finds, and a text that it cannot read has an
error. By induction on the scan: both take the same step.
-/
theorem readWords_iff_scanText {words : List Word}
    : readWords { xyDecimals, verify } text = .ok words
      ↔ ∃ found, scanText text = some found ∧ words = found.map (wordOf xyDecimals) := by
  fun_induction scanText text generalizing words with
  | case1 text blanks =>
      rw [readWords_of_stop (take_of_blanks xyDecimals verify blanks)]
      simp [eq_comm]
  | case2 text c rest start none =>
      obtain ⟨error, left, fails⟩ := take_of_scanWord_eq_none xyDecimals verify start none
      rw [readWords_of_fail fails]
      simp
  | case3 text c rest start word after found ih =>
      rw [readWords_eq_ok_of_word (take_of_scanWord xyDecimals verify start found)]
      simp only [ih, Option.map_eq_some_iff]
      constructor
      · intro given
        obtain ⟨_, ⟨found, same, rfl⟩, rfl⟩ := given
        exact ⟨_, ⟨found, same, rfl⟩, rfl⟩
      · intro given
        obtain ⟨_, ⟨found, same, rfl⟩, rfl⟩ := given
        exact ⟨_, ⟨found, same, rfl⟩, rfl⟩

end Scan

/-- The built-in dialect reads exactly its grammar. The rule of a letter takes the longest prefix
of the form of its class; what it took is read as the value that the text denotes, which numbers
have only in ASCII digits and in range; without a prefix or a value the step fails at the letter.
So a text has the words that the scanner finds.
-/
theorem linuxCnc_reads_grammar (xyDecimals : Precision) (verify : Bool)
    : (∀ letter text,
        Dialect.linuxCnc.rules letter = some (ruleOf letter)
        ∧ Found ((ValueClass.ofLetter letter).form text) text ((ruleOf letter).match? text))
      ∧ (∀ letter text source rest,
          (ruleOf letter).match? text = some (source, rest)
          → (ruleOf letter).read? source = (ValueClass.ofLetter letter).value? source)
      ∧ (∀ text c rest letter,
          text.dropWhile isBlank = c :: rest
          → Letter.ofChar? c = some letter
          → (NoPrefix ((ValueClass.ofLetter letter).form rest) rest
              → Step.take { xyDecimals, verify } text
                = .fail (.wordValueInvalid letter.char rest) rest)
            ∧ ∀ source after,
                LongestPrefix ((ValueClass.ofLetter letter).form rest) rest source after
                → Step.take { xyDecimals, verify } text
                  = match (ValueClass.ofLetter letter).value? source with
                    | none => .fail (.wordValueInvalid letter.char source) rest
                    | some value => .word (wordOf xyDecimals (letter, value)) after)
      ∧ ∀ text words,
          readWords { xyDecimals, verify } text = .ok words
          ↔ ∃ found, scanText text = some found ∧ words = found.map (wordOf xyDecimals) := by
  refine ⟨?_, ?_, ?_, ?_⟩
  · intro letter text
    exact ⟨rules_eq_ruleOf letter, found_match? letter text⟩
  · intro letter text source rest matched
    have longest := found_match? letter text
    rw [matched] at longest
    exact read?_of_longestPrefix longest
  · intro text c rest letter start hl
    have step := take_of_letter xyDecimals verify start hl
    have found := found_takeValue (ValueClass.ofLetter letter) rest
    constructor
    · intro none
      have taken : takeValue rest (ValueClass.ofLetter letter) = Option.none :=
        found.unique none
      rw [step, taken]
    · intro source after longest
      have taken : takeValue rest (ValueClass.ofLetter letter) = some (source, after) :=
        found.unique longest
      rw [step, taken]
  · intro text words
    exact readWords_iff_scanText xyDecimals verify

/-- A line number ends where its digits end. -/
theorem linuxCnc_reads_line_number
    : Step.take {} "n10 x".toList
      = .word (wordOf .standard (⟨'N', rfl⟩, .integer 10)) " x".toList := by
  obtain ⟨rules, _, step, _⟩ := linuxCnc_reads_grammar .standard true
  have longest := (rules ⟨'N', rfl⟩ "10 x".toList).2
  have matched : (ruleOf ⟨'N', rfl⟩).match? "10 x".toList = some ("10".toList, " x".toList) := by
    decide +kernel
  rw [matched] at longest
  exact (step "n10 x".toList 'n' "10 x".toList ⟨'N', rfl⟩ rfl rfl).2 _ _ longest

end Gcode.LinuxCnc
