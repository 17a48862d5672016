import Gcode.Proofs.LinuxCnc.Construction

/-! Blanks between a letter and its number.
A number with an exponent is taken only right after its letter. After blanks it is taken up to the
exponent, whose letter then starts a word of its own.
-/

namespace Gcode.LinuxCnc

open Form Number Text

-----------------------------------------------------------------------------------------
-- Values after blanks
-----------------------------------------------------------------------------------------

section Values

variable {blanks : List Char}

theorem significand_append_blanks (hb : ∀ c ∈ blanks, isBlank c) (source : List Char)
    : significand (blanks ++ source) = blanks ++ significand source :=
  List.takeWhile_append_of_pos fun c member => by simp [of_isBlank (hb c member)]

theorem power_append_blanks (hb : ∀ c ∈ blanks, isBlank c) (source : List Char)
    : power (blanks ++ source) = power source := by
  rw [power, List.dropWhile_append_of_pos fun c member => by simp [of_isBlank (hb c member)], power]

theorem digitsValue_append_blanks (hb : ∀ c ∈ blanks, isBlank c) (text : List Char)
    : digitsValue (blanks ++ text) = digitsValue text := by
  simp [digitsValue, filter_isDigit_of_blanks hb]

theorem asciiDigits_append_blanks (hb : ∀ c ∈ blanks, isBlank c) (text : List Char)
    : AsciiDigits (blanks ++ text) ↔ AsciiDigits text := by
  rw [asciiDigits_append, and_iff_right (asciiDigits_of_blanks hb)]

theorem nearestReal_append_blanks (hb : ∀ c ∈ blanks, isBlank c) (source : List Char)
    : nearestReal (blanks ++ source) = nearestReal source := by
  have places (text : List Char) : decimalPlaces (blanks ++ text) = decimalPlaces text := by
    have others : ∀ c ∈ blanks, (!isPoint c) = true := fun c member => by
      simp [of_isBlank (hb c member)]
    rw [decimalPlaces, List.dropWhile_append_of_pos others, decimalPlaces]
  have minus : '-' ∉ blanks := fun member => absurd (hb _ member) (by decide)
  have sign (text : List Char) : isNegative (blanks ++ text) = isNegative text := by
    simp [isNegative, minus]
  have same : numeral (blanks ++ source) = numeral source := by
    rw [numeral, significand_append_blanks hb, power_append_blanks hb,
      digitsValue_append_blanks hb, places, numeral]
  rw [nearestReal, same, significand_append_blanks hb, sign, nearestReal]

/-- Blanks before a value text do not change its value. -/
theorem value?_append_blanks (hb : ∀ c ∈ blanks, isBlank c) (class' : ValueClass)
    (source : List Char) : class'.value? (blanks ++ source) = class'.value? source := by
  have real : realValue? (blanks ++ source) = realValue? source := by
    simp only [realValue?, asciiDigits_append_blanks hb, nearestReal_append_blanks hb]
  have integer : integerValue? (blanks ++ source) = integerValue? source := by
    simp only [integerValue?, asciiDigits_append_blanks hb, digitsValue_append_blanks hb]
  have start : trimStart (blanks ++ source) = trimStart source :=
    List.dropWhile_append_of_pos hb
  cases class' with
  | real => exact real
  | position => exact real
  | code => exact real
  | integer => exact integer
  | tool => simp only [ValueClass.value?, trim, start]
  | name => simp only [ValueClass.value?, trim, start]

end Values

-----------------------------------------------------------------------------------------
-- Taking value texts without their exponents
-----------------------------------------------------------------------------------------

/-- A value text cut before its exponent, and what comes after the cut. -/
def cut : List Char × List Char → List Char × List Char
  | (source, rest) => (significand source, source.dropWhile (!isMark ·) ++ rest)

/-- What the second function takes is what the first one takes, cut before its exponent. -/
def Cuts (take short : Taker) : Prop :=
  ∀ text, short text = (take text).map cut

/-- Takes a real number that starts with a digit, after at most one sign, without an exponent. -/
def takeDecimal : Taker :=
  takeSign (takeDigits (takeOptional (.one isPoint (.many isDecimalDigit .stop))))

section Cut

variable {take short next first second : Taker} {p : Char → Bool}

theorem cut_cons {c : Char} (unmarked : isMark c = false) (source rest : List Char)
    : cut (c :: source, rest) = (c :: (cut (source, rest)).1, (cut (source, rest)).2) := by
  simp [cut, significand, unmarked]

theorem cuts_stop : Cuts .stop .stop :=
  fun _ => rfl

theorem cuts_cons {c : Char} (unmarked : isMark c = false)
    (result : Option (List Char × List Char))
    : (result.map cut).map (fun (source, rest) => (c :: source, rest))
      = (result.map fun (source, rest) => (c :: source, rest)).map cut := by
  cases result with
  | none => rfl
  | some pair => exact congrArg some (cut_cons unmarked pair.1 pair.2).symm

theorem Cuts.one (unmarked : ∀ c, p c → isMark c = false) (h : Cuts take short)
    : Cuts (.one p take) (.one p short) := by
  intro text
  cases text with
  | nil => rfl
  | cons c text =>
      rw [Taker.one, Taker.one]
      split
      · rename_i taken
        rw [h text, cuts_cons (unmarked c taken)]
      · rfl

/-- By induction on the text: the characters of the run are no letters of exponents. -/
theorem Cuts.many (unmarked : ∀ c, p c → isMark c = false) (h : Cuts take short)
    : Cuts (.many p take) (.many p short) := by
  intro text
  induction text with
  | nil => exact h []
  | cons c text ih =>
      rw [Taker.many, Taker.many]
      split
      · rename_i taken
        rw [ih, cuts_cons (unmarked c taken)]
      · exact h _

theorem Cuts.orElse {take' short' : Taker} (h : Cuts take short) (h' : Cuts take' short')
    : Cuts (.orElse take take') (.orElse short short') := by
  intro text
  rw [Taker.orElse, Taker.orElse, h text, h' text]
  cases take text <;> rfl

theorem Cuts.optional (h : Cuts take short) : Cuts (takeOptional take) (takeOptional short) :=
  h.orElse cuts_stop

theorem Cuts.sign (h : Cuts take short) : Cuts (takeSign take) (takeSign short) :=
  (h.one fun _ isSign => (of_isSignChar isSign).2.2.2).orElse h

theorem Cuts.decimals (h : Cuts take short)
    : Cuts (.many isDecimalDigit take) (.many isDecimalDigit short) :=
  h.many fun _ digit => (of_isDecimalDigit digit).2.2.2

theorem Cuts.digits (h : Cuts take short) : Cuts (takeDigits take) (takeDigits short) :=
  h.decimals.one fun _ digit => (of_isDecimalDigit digit).2.2.2

theorem Cuts.point (h : Cuts take short) : Cuts (.one isPoint take) (.one isPoint short) :=
  h.one fun _ isPoint => (of_isPoint isPoint).2.2.2

theorem Cuts.blanks (h : Cuts take short) : Cuts (.many isBlank take) (.many isBlank short) :=
  h.many fun _ blank => (of_isBlank blank).2.2.2

/-- Nothing is left of an exponent. -/
theorem cuts_exponent : Cuts (takeOptional takeExponent) .stop := by
  intro text
  have longest := takeOptional_takes takeExponent_takes (by simp [exponent]) text
  cases found : takeOptional takeExponent text with
  | none =>
      rw [found] at longest
      exact absurd (nil_mem_optional.2 trivial) (longest [] text rfl)
  | some pair =>
      obtain ⟨source, rest⟩ := pair
      rw [found] at longest
      have start : Stops (!isMark ·) source :=
        stops_exponent (mem_optional_exponent.1 longest.member)
      have split := longest.split
      simp [Taker.stop, cut, significand, takeWhile_of_stops start, dropWhile_of_stops start, split]

theorem cuts_scientific : Cuts takeScientific takeDecimal :=
  cuts_exponent.decimals.point.optional.digits.sign

theorem cuts_plain : Cuts takePlain takePlain :=
  ((cuts_stop.decimals.point.optional.digits).orElse cuts_stop.digits.point).sign.blanks

theorem cuts_natural : Cuts takeNatural takeNatural :=
  cuts_stop.digits.blanks

theorem cuts_code : Cuts takeCode takeCode :=
  ((cuts_stop.one fun _ digit => (of_isDecimalDigit digit).2.2.2).point.optional.digits).blanks

end Cut

-----------------------------------------------------------------------------------------
-- Value texts after blanks
-----------------------------------------------------------------------------------------

section AfterBlanks

variable {blanks text source rest : List Char} {class' : ValueClass}

theorem startsNumber_append_blanks (hb : ∀ c ∈ blanks, isBlank c) (some : blanks ≠ [])
    (text : List Char) : startsNumber (blanks ++ text) = false := by
  obtain ⟨c, more, rfl⟩ := List.exists_cons_of_ne_nil some
  simp [startsNumber, of_isBlank (hb c List.mem_cons_self)]

/-- Where a point cannot come, only the other thing is left to take. -/
theorem orElse_of_stops_point {take next : Taker} (other : Stops isPoint text)
    : Taker.orElse take (.one isPoint next) text = take text := by
  rw [Taker.orElse, Taker.one_of_stops other]
  cases take text <;> rfl

/-- Two functions that take the same here, and after a sign, take the same with a sign before. -/
theorem takeSign_congr {take take' : Taker} {c : Char} (here : take (c :: text) = take' (c :: text))
    (later : isSignChar c → take text = take' text)
    : takeSign take (c :: text) = takeSign take' (c :: text) := by
  have one : Taker.one isSignChar take (c :: text) = Taker.one isSignChar take' (c :: text) := by
    rw [Taker.one, Taker.one]
    split
    · rename_i isSign
      rw [later isSign]
    · rfl
  rw [takeSign, takeSign, Taker.orElse, Taker.orElse, one, here]

/-- A plain real number that starts with a digit, after at most one sign, has a digit before its
point.
-/
theorem takePlain_of_startsNumber (starts : startsNumber text = true)
    : takePlain text = takeDecimal text := by
  cases text with
  | nil => contradiction
  | cons c text =>
      rw [startsNumber, Bool.or_eq_true, Bool.and_eq_true] at starts
      have solid : isBlank c = false ∧ isPoint c = false := by
        rcases starts with digit | ⟨isSign, _⟩
        · exact ⟨(of_isDecimalDigit digit).1, (of_isDecimalDigit digit).2.2.1⟩
        · exact ⟨(of_isSignChar isSign).2.1, (of_isSignChar isSign).2.2.1⟩
      rw [takePlain, Taker.many_of_stops (stops_cons.2 solid.1)]
      refine takeSign_congr (orElse_of_stops_point (stops_cons.2 solid.2)) fun isSign => ?_
      have digit : text.head?.any isDecimalDigit = true := by
        rcases starts with digit | ⟨_, more⟩
        · simp [of_isDecimalDigit digit] at isSign
        · exact more
      cases text with
      | nil => contradiction
      | cons d text => exact orElse_of_stops_point (stops_cons.2 (of_isDecimalDigit digit).2.2.1)

/-- What is taken after blanks, by any class but that of names: the blanks, and the value text up
to its exponent.
-/
theorem takeValue_append_blanks (numeric : class' ≠ .name) (hb : ∀ c ∈ blanks, isBlank c)
    (some : blanks ≠ []) (text : List Char)
    : takeValue (blanks ++ text) class'
      = ((takeValue text class').map cut).map fun (source, rest) => (blanks ++ source, rest) := by
  have plainly : takeValue (blanks ++ text) .real
      = (takePlain text).map fun (source, rest) => (blanks ++ source, rest) := by
    rw [takeValue, startsNumber_append_blanks hb some]
    exact Taker.many_append hb text
  have reals : takeValue (blanks ++ text) .real
      = ((takeValue text .real).map cut).map fun (source, rest) => (blanks ++ source, rest) := by
    rw [plainly, takeValue]
    split
    · rename_i starts
      rw [takePlain_of_startsNumber starts, cuts_scientific]
    · rw [← cuts_plain]
  have natural : takeNatural (blanks ++ text)
      = ((takeNatural text).map cut).map fun (source, rest) => (blanks ++ source, rest) := by
    rw [← cuts_natural]
    exact Taker.many_append hb text
  cases class' with
  | real => exact reals
  | position => exact reals
  | code =>
      rw [takeValue, takeValue, ← cuts_code]
      exact Taker.many_append hb text
  | integer => exact natural
  | tool => exact natural
  | name => contradiction

end AfterBlanks

-----------------------------------------------------------------------------------------
-- Exponents
-----------------------------------------------------------------------------------------

section Exponents

variable {source rest : List Char}

theorem isMark_of_digits {text : List Char} (all : ∀ c ∈ text, isDecimalDigit c)
    : ∀ c ∈ text, isMark c = false :=
  fun c inside => (of_isDecimalDigit (all c inside)).2.2.2

/-- A fraction is one without an exponent, and the exponent. -/
theorem exists_fraction {text : List Char} (member : text ∈ fraction)
    : ∃ front tail, text = front ++ tail ∧ front ∈ fraction ∧ (∀ c ∈ front, isMark c = false)
      ∧ IsExponent tail := by
  rcases mem_optional.1 member with rfl | ⟨_, ⟨c, hc, rfl⟩, _, ⟨decimals, hd, tail, he, rfl⟩, rfl⟩
  · exact ⟨[], [], rfl, nil_mem_optional.2 trivial, List.forall_mem_nil _, .inl rfl⟩
  · refine ⟨c :: decimals, tail, rfl, ?_, ?_, mem_optional_exponent.1 he⟩
    · have more : decimals ∈ many isDecimalDigit * optional exponent :=
        mem_mul_of_nil_mem hd (nil_mem_optional.2 trivial)
      exact cons_mem_optional.2 (cons_mem_one_mul.2 ⟨hc, more⟩)
    · exact List.forall_mem_cons.2 ⟨(of_isPoint hc).2.2.2, isMark_of_digits hd⟩

/-- What comes before the exponent of a real number is a real number. -/
theorem significand_mem_scientific (member : source ∈ scientific)
    : significand source ∈ scientific ∧ IsExponent (source.dropWhile (!isMark ·)) := by
  obtain ⟨sign, hs, _, ⟨whole, hw, _, ht, rfl⟩, rfl⟩ := member
  obtain ⟨front, tail, rfl, hf, inFront, he⟩ := exists_fraction ht
  have inSign : ∀ c ∈ sign, isMark c = false := (mem_optional_sign.1 hs).forall rfl rfl
  have run : ∀ c ∈ sign ++ (whole ++ front), (!isMark c) = true := by
    simp only [Bool.not_eq_true']
    exact List.forall_mem_append.2
      ⟨inSign, List.forall_mem_append.2 ⟨isMark_of_digits (mem_several.1 hw).2, inFront⟩⟩
  have regroup : sign ++ (whole ++ (front ++ tail)) = sign ++ (whole ++ front) ++ tail := by simp
  change significand (sign ++ (whole ++ (front ++ tail))) ∈ scientific
    ∧ IsExponent ((sign ++ (whole ++ (front ++ tail))).dropWhile (!isMark ·))
  rw [regroup, significand, takeWhile_run run (stops_exponent he),
    dropWhile_run run (stops_exponent he)]
  exact ⟨Language.append_mem_mul hs (Language.append_mem_mul hw hf), he⟩

/-- A text is taken whole if it is a real number. -/
theorem takeValue_of_scientific {class' : ValueClass} (real : class' = .real ∨ class' = .position)
    (member : source ∈ scientific) : takeValue source class' = some (source, []) := by
  have starts : startsNumber source = true := by
    by_contra none
    exact (noPrefix_scientific source).2 (by simpa using none) source [] (List.append_nil _) member
  have whole : LongestPrefix (class'.form source) source source [] := by
    refine ⟨List.append_nil _, ?_, fun more after split _ => by simp [← split]⟩
    rcases real with rfl | rfl
    · simpa [ValueClass.form, starts] using member
    · simpa [ValueClass.form, starts] using member
  exact (found_takeValue class' source).unique whole

theorem takeSign_append {take : Taker} {sign text : List Char} (hs : IsSign sign)
    (first : Stops isSignChar text) (taken : take text = some (source, rest))
    : takeSign take (sign ++ text) = some (sign ++ source, rest) := by
  have single {c : Char} (isSign : isSignChar c)
      : takeSign take ([c] ++ text) = some ([c] ++ source, rest) := by
    simp [takeSign, Taker.orElse, Taker.one, isSign, taken]
  rcases hs with rfl | rfl | rfl
  · simp [takeSign, Taker.orElse, Taker.one_of_stops first, taken]
  · exact single rfl
  · exact single rfl

/-- A whole number is taken up to a text that starts with no digit and no point. -/
theorem takeValue_of_whole {sign whole : List Char} (hs : IsSign sign) (some : whole ≠ [])
    (hw : ∀ c ∈ whole, isDecimalDigit c) (digit : Stops isDecimalDigit rest)
    (point : Stops isPoint rest)
    : takeValue (sign ++ (whole ++ rest)) .real = .some (sign ++ whole, rest) := by
  obtain ⟨c, more, rfl⟩ := List.exists_cons_of_ne_nil some
  obtain ⟨first, others⟩ := List.forall_mem_cons.1 hw
  have starts : startsNumber (sign ++ (c :: more ++ rest)) = true := by
    rcases hs with rfl | rfl | rfl <;> simp [startsNumber, isSignChar, first]
  have stop {next : Taker} : takeOptional (.one isPoint next) rest = .some ([], rest) := by
    rw [takeOptional, Taker.orElse, Taker.one_of_stops point]
    rfl
  rw [takeValue, if_pos starts]
  refine takeSign_append hs (stops_cons.2 (of_isDecimalDigit first).2.1) ?_
  rw [takeDigits, List.cons_append, Taker.one, if_pos first, Taker.many_append others,
    Taker.many_of_stops digit, stop]
  simp

end Exponents

-----------------------------------------------------------------------------------------
-- Reading after blanks
-----------------------------------------------------------------------------------------

section Reading

variable {xyDecimals : Precision} {verify : Bool} {letter : Letter} {c : Char}
  {text source rest : List Char} {words : List Word}

theorem dropWhile_mark (mark : c = letter.char ∨ c = letter.char.toLower) (text : List Char)
    : (c :: text).dropWhile isBlank = c :: text := by
  have solid := Letter.all_of_mark mark (p := (!isBlank ·)) rfl
  exact dropWhile_of_stops (stops_cons.2 (by simpa using solid))

/-- A letter and its value text start the words of a text if the value text denotes a value and what
comes after it can be read.
-/
theorem readWords_letter (mark : c = letter.char ∨ c = letter.char.toLower)
    (taken : takeValue text (ValueClass.ofLetter letter) = some (source, rest))
    : readWords { xyDecimals, verify } (c :: text) = .ok words
      ↔ ∃ value more, (ValueClass.ofLetter letter).value? source = some value
        ∧ readWords { xyDecimals, verify } rest = .ok more
        ∧ words = wordOf xyDecimals (letter, value) :: more := by
  have step := take_of_letter xyDecimals verify (dropWhile_mark mark text)
    (Letter.ofChar?_eq_some_iff.2 mark)
  rw [taken] at step
  dsimp only at step
  cases value : (ValueClass.ofLetter letter).value? source with
  | none =>
      rw [value] at step
      rw [readWords_of_fail step]
      simp
  | some value' =>
      rw [value] at step
      rw [readWords_eq_ok_of_word step]
      simp

/-- A text that is a letter and its value text reads as one word. -/
theorem readWord_letter (mark : c = letter.char ∨ c = letter.char.toLower)
    (taken : takeValue source (ValueClass.ofLetter letter) = some (source, [])) {word : Word}
    : readWord { xyDecimals, verify } (c :: source) = .ok word
      ↔ ∃ value, (ValueClass.ofLetter letter).value? source = some value
        ∧ word = wordOf xyDecimals (letter, value) := by
  have nothing : readWords { xyDecimals, verify } [] = .ok [] :=
    readWords_of_stop (take_of_blanks xyDecimals verify rfl)
  rw [readWord_eq_ok_iff, readWords_letter mark taken]
  simp [nothing]

/-- A text that can be read starts with a blank or with a letter, if with anything. -/
theorem stops_of_readWords {p : Char → Bool} (blanks : ∀ c, isBlank c → p c = false)
    (letters : (Letter.alphabet.all fun c => !p c && !p c.toLower) = true)
    (read : readWords { xyDecimals, verify } text = .ok words) : Stops p text := by
  cases text with
  | nil => exact stops_nil
  | cons c text =>
      rw [stops_cons]
      by_cases blank : isBlank c
      · exact blanks c blank
      have start : (c :: text).dropWhile isBlank = c :: text :=
        dropWhile_of_stops (stops_cons.2 (by simpa using blank))
      cases hl : Letter.ofChar? c with
      | none =>
          rw [readWords_of_fail (take_of_other xyDecimals verify start hl)] at read
          contradiction
      | some letter =>
          have other := Letter.all_of_mark (Letter.ofChar?_eq_some_iff.1 hl) (p := (!p ·)) letters
          simpa using other

/-- Only a real number has an exponent. -/
theorem class_of_isMark (numeric : letter.char ≠ 'O')
    (taken : takeValue text (ValueClass.ofLetter letter) = some (source, rest))
    (marked : ¬ ∀ d ∈ source, isMark d = false)
    : (ValueClass.ofLetter letter = .real ∨ ValueClass.ofLetter letter = .position)
      ∧ source ∈ scientific := by
  -- what a function takes that cuts nothing has no exponent
  have uncut {take : Taker} (cuts : Cuts take take) (found : take text = some (source, rest))
      : False := by
    have same := cuts text
    rw [found] at same
    have front : source = significand source := congrArg Prod.fst (Option.some.inj same)
    refine marked fun d inside => ?_
    rw [front] at inside
    simpa using of_mem_takeWhile inside
  have real (found : (if startsNumber text then takeScientific text else takePlain text)
      = some (source, rest)) : source ∈ scientific := by
    split at found
    · exact (takeScientific_takes.longest found).member
    · exact (uncut cuts_plain found).elim
  cases hc : ValueClass.ofLetter letter with
  | real =>
      rw [hc] at taken
      exact ⟨.inl rfl, real taken⟩
  | position =>
      rw [hc] at taken
      exact ⟨.inr rfl, real taken⟩
  | code =>
      rw [hc] at taken
      exact (uncut cuts_code taken).elim
  | integer =>
      rw [hc] at taken
      exact (uncut cuts_natural taken).elim
  | tool =>
      rw [hc] at taken
      exact (uncut cuts_natural taken).elim
  | name => exact absurd ((isName_iff letter).1 hc) numeric

end Reading

section Spaced

variable (xyDecimals : Precision) (verify : Bool) {letter : Letter} {c mark : Char}
  {blanks text source rest : List Char} {words : List Word}

/-- What is read of a letter and the text after it with blanks between them, where the words
without the blanks are known. If the value text of the letter has no exponent, the words are the
same. If it has one, the letter keeps the number before the exponent, the letter of the exponent
starts a word with the whole number after it, and the words that follow are the same; the text can
be read exactly if these two words can.
-/
inductive SpacedReading (letter : Letter) (c : Char) (blanks text : List Char) (words : List Word)
    : Prop where
  | same {source rest : List Char} (matched : (ruleOf letter).match? text = some (source, rest))
    (plain : ∀ d ∈ source, isMark d = false)
    (read : readWords { xyDecimals, verify } (c :: (blanks ++ text)) = .ok words)
  | split {source rest : List Char} {mark : Char}
    (matched : (ruleOf letter).match? text = some (source, rest))
    (real : ValueClass.ofLetter letter = .real ∨ ValueClass.ofLetter letter = .position)
    (isMark : isMark mark)
    (parts : source = significand source ++ mark :: power source)
    (read
      : ∀ found,
          readWords { xyDecimals, verify } (c :: (blanks ++ text)) = .ok found
          ↔ ∃ first second,
              readWord { xyDecimals, verify } (c :: significand source) = .ok first
              ∧ readWord { xyDecimals, verify } (mark :: power source) = .ok second
              ∧ found = first :: second :: words.tail)

/-- The letter of an exponent and a whole number read as a word, before any text with words. -/
theorem readWords_exponent {more : List Word} (isMark : isMark mark)
    (exponent : IsExponent (mark :: power source))
    (read : readWords { xyDecimals, verify } rest = .ok more)
    : readWords { xyDecimals, verify } (mark :: (power source ++ rest)) = .ok words
      ↔ ∃ second, readWord { xyDecimals, verify } (mark :: power source) = .ok second
        ∧ words = second :: more := by
  have letter : mark = (⟨'E', rfl⟩ : Letter).char ∨ mark = (⟨'E', rfl⟩ : Letter).char.toLower := by
    rw [LinuxCnc.isMark, Bool.or_eq_true, beq_iff_eq, beq_iff_eq] at isMark
    exact isMark.symm
  obtain ⟨sign, whole, same, hs, some, hw⟩ : ∃ sign whole, power source = sign ++ whole
      ∧ IsSign sign ∧ whole ≠ [] ∧ ∀ c ∈ whole, isDecimalDigit c := by
    rcases exponent with none | ⟨_, sign, whole, same, _, hs, some, hw⟩
    · contradiction
    · exact ⟨sign, whole, (List.cons.inj same).2, hs, some, hw⟩
  have digit : Stops isDecimalDigit rest :=
    stops_of_readWords (fun c blank => (of_isBlank blank).1) (by decide +kernel) read
  have point : Stops isPoint rest :=
    stops_of_readWords (fun c blank => (of_isBlank blank).2.2.1) (by decide +kernel) read
  have taken := takeValue_of_whole hs some hw digit point
  have alone := takeValue_of_whole hs some hw stops_nil stops_nil
  rw [← List.append_assoc, ← same] at taken
  rw [← List.append_assoc, ← same, List.append_nil] at alone
  rw [readWords_letter letter taken]
  simp only [readWord_letter letter alone, read, Except.ok.injEq]
  constructor
  · intro given
    obtain ⟨value, _, denotes, rfl, rfl⟩ := given
    exact ⟨_, ⟨value, denotes, rfl⟩, rfl⟩
  · intro given
    obtain ⟨_, ⟨value, denotes, rfl⟩, rfl⟩ := given
    exact ⟨value, more, denotes, rfl, rfl⟩

/-- Blanks between a letter and its value text do not change what is read, unless the value text
has an exponent. Only the letter of names is different: blanks are part of a name.
-/
theorem reads_after_blanks (numeric : letter.char ≠ 'O')
    (isLetter : c = letter.char ∨ c = letter.char.toLower)
    (hb : ∀ d ∈ blanks, isBlank d) (some : blanks ≠ [])
    (read : readWords { xyDecimals, verify } (c :: text) = .ok words)
    : SpacedReading xyDecimals verify letter c blanks text words := by
  have noName : ValueClass.ofLetter letter ≠ .name := fun isName =>
    numeric ((isName_iff letter).1 isName)
  cases taken : takeValue text (ValueClass.ofLetter letter) with
  | none =>
      have step := take_of_letter xyDecimals verify (dropWhile_mark isLetter text)
        (Letter.ofChar?_eq_some_iff.2 isLetter)
      rw [taken] at step
      rw [readWords_of_fail step] at read
      contradiction
  | some pair =>
      obtain ⟨source, rest⟩ := pair
      have matched := (match?_eq_takeValue letter text).trans taken
      obtain ⟨value, more, denotes, others, rfl⟩ := (readWords_letter isLetter taken).1 read
      have spaced := takeValue_append_blanks noName hb some text
      rw [taken] at spaced
      have spaced : takeValue (blanks ++ text) (ValueClass.ofLetter letter)
          = .some (blanks ++ significand source, source.dropWhile (!isMark ·) ++ rest) := spaced
      by_cases plain : ∀ d ∈ source, isMark d = false
      · refine .same matched plain ?_
        have run : ∀ d ∈ source, (!isMark d) = true := by simpa using plain
        rw [significand, takeWhile_all run, dropWhile_all run] at spaced
        refine (readWords_letter isLetter spaced).2 ⟨value, more, ?_, others, rfl⟩
        rwa [value?_append_blanks hb]
      · obtain ⟨real, member⟩ := class_of_isMark numeric taken plain
        obtain ⟨front, exponent⟩ := significand_mem_scientific member
        obtain ⟨mark, isMark, tail⟩ : ∃ mark, isMark mark
            ∧ source.dropWhile (!isMark ·) = mark :: power source := by
          rcases exponent with none | ⟨mark, sign, whole, tail, isMark, _⟩
          · exact absurd (by simpa using List.dropWhile_eq_nil_iff.1 none) plain
          · exact ⟨mark, isMark, by rw [power, tail]; rfl⟩
        rw [tail] at exponent spaced
        have parts : source = significand source ++ mark :: power source := by
          rw [← tail, significand, List.takeWhile_append_dropWhile]
        have alone := takeValue_of_scientific real front
        refine .split matched real isMark parts fun found => ?_
        rw [readWords_letter isLetter spaced, List.cons_append]
        simp only [readWords_exponent xyDecimals verify isMark exponent others,
          readWord_letter isLetter alone, value?_append_blanks hb, List.tail_cons]
        constructor
        · intro given
          obtain ⟨value, _, denotes, ⟨second, single, rfl⟩, rfl⟩ := given
          exact ⟨_, second, ⟨value, denotes, rfl⟩, single, rfl⟩
        · intro given
          obtain ⟨_, second, ⟨value, denotes, rfl⟩, single, rfl⟩ := given
          exact ⟨value, _, denotes, ⟨second, single, rfl⟩, rfl⟩

end Spaced

/-- A small letter with blanks before a position that has no exponent. -/
theorem reads_position_after_blanks
    : ∃ words, readWords {} "x-.5y2".toList = .ok words
        ∧ SpacedReading .standard true ⟨'X', rfl⟩ 'x' [' ', '\t'] "-.5y2".toList words := by
  have accepted : (readWords {} ('x' :: "-.5y2".toList)).isOk := by decide +kernel
  obtain ⟨words, read⟩ := exists_of_isOk accepted
  have isLetter : 'x' = (⟨'X', rfl⟩ : Letter).char ∨ 'x' = (⟨'X', rfl⟩ : Letter).char.toLower :=
    .inr rfl
  have blanks : ∀ d ∈ [' ', '\t'], isBlank d :=
    List.forall_mem_cons.2 ⟨rfl, List.forall_mem_singleton.2 rfl⟩
  exact ⟨words, read, reads_after_blanks .standard true (by decide) isLetter blanks (by simp) read⟩

/-- A position with an exponent is one word, and two words with a blank before its number. -/
theorem exponent_after_blank_is_word
    : ∃ words spaced,
        readWords {} "X1.2e3".toList = .ok words
        ∧ readWords {} "X 1.2e3".toList = .ok spaced
        ∧ words.map Word.toText = ["X1200.000".toList]
        ∧ spaced.map Word.toText = ["X1.200".toList, "E3.000".toList]
        ∧ spaced ≠ words := by
  have reads {text : List Char} {texts : List (List Char)}
      (scanned : (scanWords {} text).2 = none ∧ (scanWords {} text).1.map Word.toText = texts)
      : ∃ words, readWords {} text = .ok words ∧ words.map Word.toText = texts := by
    refine ⟨_, ?_, scanned.2⟩
    rw [readWords]
    split <;> simp_all
  obtain ⟨words, read, one⟩ : ∃ words, readWords {} "X1.2e3".toList = .ok words
      ∧ words.map Word.toText = ["X1200.000".toList] :=
    reads (by decide +kernel)
  obtain ⟨spaced, readSpaced, two⟩ : ∃ spaced, readWords {} "X 1.2e3".toList = .ok spaced
      ∧ spaced.map Word.toText = ["X1.200".toList, "E3.000".toList] :=
    reads (by decide +kernel)
  refine ⟨words, spaced, read, readSpaced, one, two, ?_⟩
  rintro rfl
  rw [one] at two
  contradiction

end Gcode.LinuxCnc
