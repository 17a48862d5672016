import Gcode.Proofs.LinuxCnc.Forms
import Gcode.Proofs.Text.Blank
import Gcode.Value.Basic

/-! The numbers that value texts denote.
What a number text is worth is said by its characters alone: the digits and the point before the
letter of an exponent, and the sign and digits after it. A text with digits of other scripts is
worth nothing.
-/

namespace Gcode.LinuxCnc

open Number Text

-----------------------------------------------------------------------------------------
-- The number of a text
-----------------------------------------------------------------------------------------

/-- The part of a number text before its exponent. -/
def significand (source : List Char) : List Char :=
  source.takeWhile (!isMark ·)

/-- The text of the exponent, without its letter. -/
def power (source : List Char) : List Char :=
  (source.dropWhile (!isMark ·)).drop 1

/-- The number that the digits of a text make, whatever stands between them. -/
def digitsValue (text : List Char) : Nat :=
  ofDigits (text.filter Char.isDigit)

/-- Whether there is a minus sign. -/
def isNegative (text : List Char) : Bool :=
  text.contains '-'

/-- The number of digits after the point. -/
def decimalPlaces (text : List Char) : Nat :=
  ((text.dropWhile (!isPoint ·)).filter Char.isDigit).length

/-- The decimal number that a number text denotes, without its sign. -/
def numeral (source : List Char) : Numeral where
  digits := digitsValue (significand source)
  exponent :=
    (if isNegative (power source) then -(digitsValue (power source) : Int)
      else digitsValue (power source))
    - decimalPlaces (significand source)

/-- All digits of a text are the digits of ASCII. -/
def AsciiDigits (text : List Char) : Prop :=
  ∀ c ∈ text, isDecimalDigit c → c.isDigit

instance (text : List Char) : Decidable (AsciiDigits text) :=
  List.decidableBAll (fun c => isDecimalDigit c → c.isDigit) text

/-- The binary64 number nearest to the number of a text. -/
def nearestReal (source : List Char) : Binary64 :=
  let units := (numeral source).units
  .ofRatio (isNegative (significand source)) units.num.natAbs units.den

-----------------------------------------------------------------------------------------
-- Characters that count for nothing
-----------------------------------------------------------------------------------------

section Filter

variable {text : List Char}

theorem filter_isDigit_eq_nil (none : ∀ c ∈ text, isDecimalDigit c = false)
    : text.filter Char.isDigit = [] := by
  rw [List.filter_eq_nil_iff]
  intro c member digit
  have := none c member
  rw [isDecimalDigit_of_isDigit digit] at this
  contradiction

theorem filter_isDigit_of_sign (hs : IsSign text) : text.filter Char.isDigit = [] := by
  rcases hs with rfl | rfl | rfl <;> rfl

theorem filter_isDigit_of_blanks (blanks : ∀ c ∈ text, isBlank c)
    : text.filter Char.isDigit = [] :=
  filter_isDigit_eq_nil fun c member => isDecimalDigit_of_isBlank (blanks c member)

theorem filter_isDigit_of_digits (all : ∀ c ∈ text, c.isDigit)
    : text.filter Char.isDigit = text :=
  List.filter_eq_self.2 all

theorem digitsValue_digits (all : ∀ c ∈ text, c.isDigit) : digitsValue text = ofDigits text := by
  rw [digitsValue, List.filter_eq_self.2 all]

end Filter

-----------------------------------------------------------------------------------------
-- The parts of a number
-----------------------------------------------------------------------------------------

section Parts

variable {front decimals tail : List Char}

theorem stops_exponent (ht : IsExponent tail) : Stops (!isMark ·) tail := by
  rcases ht with rfl | ⟨mark, sign, power, rfl, hm, _⟩
  · exact stops_nil
  · simpa using hm

/-- A number without a point is its digits. -/
theorem numeral_whole (marks : ∀ c ∈ front, isMark c = false)
    (points : ∀ c ∈ front, isPoint c = false)
    : numeral front = ⟨ofDigits (front.filter Char.isDigit), 0⟩
      ∧ isNegative (significand front) = isNegative front := by
  have all : significand front = front := takeWhile_all (by simpa using marks)
  have none : power front = [] := by
    rw [power, dropWhile_all (by simpa using marks)]
    rfl
  have places : front.dropWhile (!isPoint ·) = [] := dropWhile_all (by simpa using points)
  simp [numeral, all, none, digitsValue, decimalPlaces, places, isNegative, ofDigits]

/-- A number with a point is the digits on both sides of it, and the exponent. -/
theorem numeral_point (marks : ∀ c ∈ front, isMark c = false)
    (points : ∀ c ∈ front, isPoint c = false) (hd : ∀ c ∈ decimals, c.isDigit)
    (ht : IsExponent tail)
    : numeral (front ++ '.' :: (decimals ++ tail))
        = ⟨ofDigits (front.filter Char.isDigit ++ decimals),
          (if isNegative (tail.drop 1) then -(digitsValue (tail.drop 1) : Int)
            else digitsValue (tail.drop 1)) - decimals.length⟩
      ∧ isNegative (significand (front ++ '.' :: (decimals ++ tail))) = isNegative front := by
  have inDecimals : ∀ c ∈ decimals, isMark c = false := fun c member =>
    (of_isDecimalDigit (isDecimalDigit_of_isDigit (hd c member))).2.2.2
  have run : ∀ c ∈ front ++ '.' :: decimals, (!isMark c) = true := by
    intro c member
    simp only [List.mem_append, List.mem_cons] at member
    rcases member with member | rfl | member
    · simpa using marks c member
    · rfl
    · simpa using inDecimals c member
  have regroup : front ++ '.' :: (decimals ++ tail) = (front ++ '.' :: decimals) ++ tail := by simp
  have before : significand (front ++ '.' :: (decimals ++ tail)) = front ++ '.' :: decimals := by
    rw [regroup]
    exact takeWhile_run run (stops_exponent ht)
  have after : power (front ++ '.' :: (decimals ++ tail)) = tail.drop 1 := by
    rw [regroup, power, dropWhile_run run (stops_exponent ht)]
  have places : decimalPlaces (front ++ '.' :: decimals) = decimals.length := by
    have stop : Stops (!isPoint ·) ('.' :: decimals) := stops_cons.2 rfl
    rw [decimalPlaces, dropWhile_run (by simpa using points) stop]
    simp [filter_isDigit_of_digits hd]
  have minus : '-' ∉ decimals := fun member => absurd (hd _ member) (by decide)
  refine ⟨?_, ?_⟩
  · rw [numeral, before, after, places, digitsValue]
    simp [filter_isDigit_of_digits hd]
  · rw [before]
    simp [isNegative, minus]

theorem readExponent?_of_isExponent (ht : IsExponent tail) (ascii : AsciiDigits tail)
    : readExponent? tail
      = some (if isNegative (tail.drop 1) then -(digitsValue (tail.drop 1) : Int)
          else digitsValue (tail.drop 1)) := by
  rcases ht with rfl | ⟨mark, sign, power, rfl, hm, hs, some, hp⟩
  · rfl
  · have all : ∀ c ∈ power, c.isDigit := fun c member =>
      ascii c (by simp [member]) (hp c member)
    have minus : '-' ∉ power := fun member => absurd (all _ member) (by decide)
    have isLetter : mark = 'e' ∨ mark = 'E' := by simpa [isMark] using hm
    rw [readExponent?, if_pos isLetter, readInt?_append hs some all]
    simp [isNegative, minus, digitsValue, filter_isDigit_of_sign hs, filter_isDigit_of_digits all]

end Parts

-----------------------------------------------------------------------------------------
-- Reading numbers
-----------------------------------------------------------------------------------------

theorem Numeral.units_nonneg (n : Numeral) : 0 ≤ n.units := by
  unfold Numeral.units
  positivity

theorem toBinary64_numeral (source : List Char)
    : (numeral source).toBinary64 (isNegative (significand source)) = nearestReal source := by
  obtain ⟨units, hu⟩ : ∃ units, units = (numeral source).units := ⟨_, rfl⟩
  have positive : 0 ≤ units := hu ▸ Numeral.units_nonneg _
  have quotient : (units.num.natAbs : ℚ) / units.den = units := by
    have same : ((units.num.natAbs : Int) : ℚ) = units.num := by
      rw [Int.natAbs_of_nonneg (Rat.num_nonneg.2 positive)]
    rw [Int.cast_natCast] at same
    rw [same, Rat.num_div_den]
  rw [nearestReal, ← hu]
  exact Numeral.toBinary64_eq_ofRatio _ _ units.den_pos (quotient.trans hu)

/-- After its sign a number starts with a digit or a point. -/
theorem NumberText.start {text : List Char} (h : NumberText text)
    : ∃ sign body, IsSign sign ∧ (∃ c rest, body = c :: rest ∧ (isDecimalDigit c ∨ c = '.'))
      ∧ text = sign ++ body := by
  cases h with
  | whole sign whole hs some hw =>
      obtain ⟨c, rest, hc⟩ := List.exists_cons_of_ne_nil some
      exact ⟨sign, whole, hs, ⟨c, rest, hc, .inl (hw c (by simp [hc]))⟩, rfl⟩
  | point sign whole decimals tail hs some hw hd ht =>
      refine ⟨sign, _, hs, ?_, rfl⟩
      cases whole with
      | nil => exact ⟨'.', _, rfl, .inr rfl⟩
      | cons c whole => exact ⟨c, _, rfl, .inl (hw c List.mem_cons_self)⟩

/-- What comes before the point of a number: blanks, a sign and digits. Only the digits have a
value, and only the sign tells whether it is negative.
-/
theorem of_front {blanks sign whole : List Char} (hb : ∀ c ∈ blanks, isBlank c) (hs : IsSign sign)
    (hw : ∀ c ∈ whole, c.isDigit)
    : (∀ c ∈ blanks ++ (sign ++ whole), isMark c = false)
      ∧ (∀ c ∈ blanks ++ (sign ++ whole), isPoint c = false)
      ∧ (blanks ++ (sign ++ whole)).filter Char.isDigit = whole
      ∧ isNegative (blanks ++ (sign ++ whole)) = decide ('-' ∈ sign) := by
  have inSign : ∀ c ∈ sign, isMark c = false ∧ isPoint c = false :=
    hs.forall ⟨rfl, rfl⟩ ⟨rfl, rfl⟩
  have notBlank : '-' ∉ blanks := fun member => absurd (hb _ member) (by decide)
  have notDigit : '-' ∉ whole := fun member => absurd (hw _ member) (by decide)
  refine ⟨?_, ?_, ?_, ?_⟩
  · intro c member
    simp only [List.mem_append] at member
    rcases member with member | member | member
    · exact (of_isBlank (hb c member)).2.2.2
    · exact (inSign c member).1
    · exact (of_isDecimalDigit (isDecimalDigit_of_isDigit (hw c member))).2.2.2
  · intro c member
    simp only [List.mem_append] at member
    rcases member with member | member | member
    · exact (of_isBlank (hb c member)).2.2.1
    · exact (inSign c member).2
    · exact (of_isDecimalDigit (isDecimalDigit_of_isDigit (hw c member))).2.2.1
  · simp [filter_isDigit_of_blanks hb, filter_isDigit_of_sign hs, filter_isDigit_of_digits hw]
  · simp [isNegative, notBlank, notDigit]

/-- A number in ASCII digits is read as the binary64 number nearest to it; blanks before it
change nothing.
-/
theorem read?_of_asciiDigits {blanks text : List Char} (hb : ∀ c ∈ blanks, isBlank c)
    (h : NumberText text) (ascii : AsciiDigits text)
    : Binary64.read? text = some (nearestReal (blanks ++ text)) := by
  rw [← toBinary64_numeral]
  cases h with
  | whole sign whole hs some hw =>
      have digits : ∀ c ∈ whole, c.isDigit := fun c member => ascii c (by simp [member]) (hw c member)
      obtain ⟨marks, points, value, negative⟩ := of_front hb hs digits
      obtain ⟨hn, hneg⟩ := numeral_whole marks points
      obtain ⟨c, rest, hc⟩ := List.exists_cons_of_ne_nil some
      have start : ∃ c rest, whole = c :: rest ∧ (isDecimalDigit c ∨ c = '.') :=
        ⟨c, rest, hc, .inl (hw c (by simp [hc]))⟩
      rw [Binary64.read?_append hs start, Numeral.read?_whole some digits, hn, hneg, value, negative]
      rfl
  | point sign whole decimals tail hs some hw hd ht =>
      have digits : ∀ c ∈ whole, c.isDigit := fun c member => ascii c (by simp [member]) (hw c member)
      have digits' : ∀ c ∈ decimals, c.isDigit := fun c member =>
        ascii c (by simp [member]) (hd c member)
      have tailAscii : AsciiDigits tail := fun c member => ascii c (by simp [member])
      have stop : Stops Char.isDigit tail := by
        rcases ht with rfl | ⟨mark, _, _, rfl, hm, _⟩
        · exact stops_nil
        · rw [stops_cons]
          by_contra digit
          have := isDecimalDigit_of_isDigit (by simpa using digit)
          simp [of_isMark hm] at this
      obtain ⟨marks, points, value, negative⟩ := of_front hb hs digits
      obtain ⟨hn, hneg⟩ := numeral_point marks points digits' ht
      have start : ∃ c rest, whole ++ '.' :: (decimals ++ tail) = c :: rest
          ∧ (isDecimalDigit c ∨ c = '.') := by
        cases whole with
        | nil => exact ⟨'.', _, rfl, .inr rfl⟩
        | cons c whole => exact ⟨c, _, rfl, .inl (hw c List.mem_cons_self)⟩
      have regroup : blanks ++ (sign ++ (whole ++ '.' :: (decimals ++ tail)))
          = blanks ++ (sign ++ whole) ++ '.' :: (decimals ++ tail) := by simp
      rw [Binary64.read?_append hs start, Numeral.read?_point some digits digits' stop,
        readExponent?_of_isExponent ht tailAscii, regroup, hn, hneg, value, negative]
      rfl

theorem asciiDigits_append {front back : List Char}
    : AsciiDigits (front ++ back) ↔ AsciiDigits front ∧ AsciiDigits back := by
  simp only [AsciiDigits, List.mem_append, or_imp, forall_and]

theorem asciiDigits_cons {c : Char} {text : List Char}
    : AsciiDigits (c :: text) ↔ (isDecimalDigit c → c.isDigit) ∧ AsciiDigits text := by
  simp [AsciiDigits]

theorem asciiDigits_of_blanks {blanks : List Char} (hb : ∀ c ∈ blanks, isBlank c)
    : AsciiDigits blanks := by
  intro c member digit
  rw [isDecimalDigit_of_isBlank (hb c member)] at digit
  contradiction

theorem asciiDigits_of_isDigit {text : List Char} (all : ∀ c ∈ text, c.isDigit)
    : AsciiDigits text :=
  fun c member _ => all c member

theorem asciiDigits_of_splitSign {text : List Char} (h : AsciiDigits (splitSign text).2)
    : AsciiDigits text := by
  unfold splitSign at h
  split at h
  · exact asciiDigits_cons.2 ⟨by decide, h⟩
  · exact asciiDigits_cons.2 ⟨by decide, h⟩
  · exact h

theorem asciiDigits_of_readInt? {text : List Char} {n : Int} (h : readInt? text = some n)
    : AsciiDigits text := by
  have hm : ((readDigits? (splitSign text).2).map fun m =>
      if (splitSign text).1 then -(m : Int) else m) = some n := h
  obtain ⟨m, hm, _⟩ := Option.map_eq_some_iff.1 hm
  apply asciiDigits_of_splitSign
  by_cases all : (splitSign text).2 ≠ [] ∧ (splitSign text).2.all Char.isDigit
  · exact asciiDigits_of_isDigit (List.all_eq_true.1 all.2)
  · rw [readDigits?, if_neg all] at hm
    contradiction

theorem asciiDigits_of_readExponent? {text : List Char} {n : Int} (h : readExponent? text = some n)
    : AsciiDigits text := by
  cases text with
  | nil => exact List.forall_mem_nil _
  | cons c text =>
      rw [readExponent?] at h
      split at h
      · rename_i letter
        refine asciiDigits_cons.2 ⟨?_, asciiDigits_of_readInt? h⟩
        rcases letter with rfl | rfl <;> decide
      · contradiction

/-- Digits of other scripts are not read. -/
theorem asciiDigits_of_read? {text : List Char} {n : Numeral} (h : Numeral.read? text = some n)
    : AsciiDigits text := by
  have hn : (if (splitPoint text).1 ++ (splitPoint text).2.1 = [] then none
      else (readExponent? (splitPoint text).2.2).map fun exponent =>
        (⟨ofDigits ((splitPoint text).1 ++ (splitPoint text).2.1),
          exponent - (splitPoint text).2.1.length⟩ : Numeral)) = some n := h
  split at hn
  · contradiction
  · obtain ⟨e, he, _⟩ := Option.map_eq_some_iff.1 hn
    have inDigits : ∀ c ∈ (splitPoint text).1 ++ (splitPoint text).2.1, c.isDigit :=
      fun c => isDigit_of_mem_splitPoint
    obtain ⟨whole, decimals⟩ := asciiDigits_append.1 (asciiDigits_of_isDigit inDigits)
    obtain ⟨point, parts, hp⟩ := splitPoint_append text
    rw [parts]
    refine asciiDigits_append.2 ⟨whole, asciiDigits_append.2 ⟨?_, asciiDigits_append.2
      ⟨decimals, asciiDigits_of_readExponent? he⟩⟩⟩
    rcases hp with rfl | rfl
    · exact List.forall_mem_nil _
    · exact asciiDigits_cons.2 ⟨by decide, List.forall_mem_nil _⟩

/-- A number text is read exactly when its digits are those of ASCII. -/
theorem read?_numberText {blanks text : List Char} (hb : ∀ c ∈ blanks, isBlank c)
    (h : NumberText text)
    : Binary64.read? text
      = if AsciiDigits (blanks ++ text) then some (nearestReal (blanks ++ text)) else none := by
  split
  · rename_i ascii
    exact read?_of_asciiDigits hb h (asciiDigits_append.1 ascii).2
  · rename_i other
    obtain ⟨sign, body, hs, start, rfl⟩ := h.start
    rw [Binary64.read?_append hs start]
    cases hn : Numeral.read? body with
    | none => rfl
    | some n =>
        refine (other ?_).elim
        have inSign : AsciiDigits sign := hs.forall (by decide) (by decide)
        exact asciiDigits_append.2 ⟨asciiDigits_of_blanks hb,
          asciiDigits_append.2 ⟨inSign, asciiDigits_of_read? hn⟩⟩

-----------------------------------------------------------------------------------------
-- Values
-----------------------------------------------------------------------------------------

/-- The value of a real number or code text. -/
def realValue? (source : List Char) : Option Value :=
  if AsciiDigits source ∧ (nearestReal source).isFinite then some (.real (nearestReal source))
  else none

/-- The value of a natural number text. -/
def integerValue? (source : List Char) : Option Value :=
  if AsciiDigits source ∧ digitsValue source < 2 ^ 63 then
    some (.integer (Int64.ofInt (digitsValue source)))
  else none

section Values

variable {blanks text : List Char}

theorem read?_real (hb : ∀ c ∈ blanks, isBlank c) (h : NumberText text)
    : Value.read? .real (blanks ++ text) = realValue? (blanks ++ text) := by
  simp only [Value.read?]
  rw [trim_append_of_solid hb h.solid, read?_numberText hb h]
  unfold realValue?
  by_cases ascii : AsciiDigits (blanks ++ text)
  · by_cases finite : (nearestReal (blanks ++ text)).isFinite
    · simp [ascii, finite, Value.finiteReal?]
    · simp [ascii, finite, Value.finiteReal?]
  · simp [ascii]

theorem read?_integer (hb : ∀ c ∈ blanks, isBlank c) (some : text ≠ [])
    (digits : ∀ c ∈ text, isDecimalDigit c)
    : Value.read? .integer (blanks ++ text) = integerValue? (blanks ++ text) := by
  have solid : ∀ c ∈ text, isBlank c = false := fun c member =>
    isBlank_of_isDecimalDigit (digits c member)
  have value : digitsValue (blanks ++ text) = digitsValue text := by
    simp [digitsValue, filter_isDigit_of_blanks hb]
  simp only [Value.read?]
  rw [trim_append_of_solid hb solid]
  unfold integerValue?
  rw [value]
  by_cases ascii : AsciiDigits (blanks ++ text)
  · have all : ∀ c ∈ text, c.isDigit := fun c member =>
      (asciiDigits_append.1 ascii).2 c member (digits c member)
    rw [readInt64?_of_isDigit some all, digitsValue_digits all]
    by_cases fits : ofDigits text < 2 ^ 63
    · have bounds : -2 ^ 63 ≤ (ofDigits text : Int) ∧ (ofDigits text : Int) < 2 ^ 63 := by omega
      simp only [toInt64?_eq, bounds, ascii, fits, and_self, if_true, Option.map_some]
    · have bounds : ¬ (-2 ^ 63 ≤ (ofDigits text : Int) ∧ (ofDigits text : Int) < 2 ^ 63) := by omega
      simp only [toInt64?_eq, bounds, fits, and_false, if_false, Option.map_none]
  · have none : readInt? text = none := by
      cases hn : readInt? text with
      | none => rfl
      | some n =>
          have inBlanks : AsciiDigits blanks := asciiDigits_of_blanks hb
          exact (ascii (asciiDigits_append.2 ⟨inBlanks, asciiDigits_of_readInt? hn⟩)).elim
    simp [readInt64?, none, ascii]

end Values

end Gcode.LinuxCnc
