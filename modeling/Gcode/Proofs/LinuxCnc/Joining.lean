import Gcode.Proofs.LinuxCnc.Scanner
import Gcode.Proofs.Word.Agreement
import Gcode.Proofs.Word.Lossless

/-! Texts joined with a blank between them.
A blank ends every number, so what is taken of a text does not depend on what comes after a blank
at its end. A joined text has the words of both texts.
-/

namespace Gcode

namespace Taker

variable {take next first second : Taker} {p : Char → Bool} {tail text source rest : List Char}

/-- What is taken of a text is the same with the tail after the text. -/
def Ignores (tail : List Char) (take : Taker) : Prop :=
  ∀ text, take (text ++ tail) = (take text).map fun (source, rest) => (source, rest ++ tail)

theorem ignores_stop : Ignores tail .stop :=
  fun _ => rfl

theorem ignores_cons {c : Char} (result : Option (List Char × List Char))
    : (result.map fun (source, rest) => (source, rest ++ tail)).map
        (fun (source, rest) => (c :: source, rest))
      = (result.map fun (source, rest) => (c :: source, rest)).map
          fun (source, rest) => (source, rest ++ tail) := by
  cases result <;> rfl

theorem Ignores.one (stops : Text.Stops p tail) (h : next.Ignores tail)
    : (Taker.one p next).Ignores tail := by
  intro text
  cases text with
  | nil => exact one_of_stops stops
  | cons c text =>
      rw [List.cons_append, Taker.one, Taker.one]
      split
      · rw [h text, ignores_cons]
      · rfl

/-- By induction on the text: a run that reaches the end of the text stops before the tail. -/
theorem Ignores.many (stops : Text.Stops p tail) (h : next.Ignores tail)
    : (Taker.many p next).Ignores tail := by
  intro text
  induction text with
  | nil => exact (many_of_stops stops).trans (h [])
  | cons c text ih =>
      rw [List.cons_append, Taker.many, Taker.many]
      split
      · rw [ih, ignores_cons]
      · exact h (c :: text)

theorem Ignores.orElse (h : first.Ignores tail) (h' : second.Ignores tail)
    : (Taker.orElse first second).Ignores tail := by
  intro text
  rw [Taker.orElse, Taker.orElse, h text, h' text]
  cases first text <;> rfl

/-- After blanks at the start of a text it is enough that something is taken of the text: then the
blanks do not reach the tail.
-/
theorem Ignores.after_many (h : next.Ignores tail) (more : next [] = none)
    (taken : Taker.many p next text = some (source, rest))
    : Taker.many p next (text ++ tail) = some (source, rest ++ tail) := by
  induction text generalizing source with
  | nil =>
      rw [Taker.many, more] at taken
      contradiction
  | cons c text ih =>
      rw [Taker.many] at taken
      rw [List.cons_append, Taker.many]
      split
      · rename_i blank
        rw [if_pos blank] at taken
        obtain ⟨⟨front, after⟩, found, same⟩ := Option.map_eq_some_iff.1 taken
        cases same
        rw [ih found]
        rfl
      · rename_i other
        rw [if_neg other] at taken
        rw [← List.cons_append, h, taken]
        rfl

end Taker

namespace LinuxCnc

open Number Text

-----------------------------------------------------------------------------------------
-- Value texts before a blank
-----------------------------------------------------------------------------------------

section BeforeBlank

variable {tail text source rest : List Char} {class' : ValueClass} {take : Taker}

/-- A text that ends or goes on with a blank goes on with no character of a number. -/
theorem stops_number (ends : Stops (!isBlank ·) tail)
    : Stops isDecimalDigit tail ∧ Stops isSignChar tail ∧ Stops isPoint tail ∧ Stops isMark tail :=
  ⟨stops_of_ends (fun _ blank => (of_isBlank blank).1) ends,
    stops_of_ends (fun _ blank => (of_isBlank blank).2.1) ends,
    stops_of_ends (fun _ blank => (of_isBlank blank).2.2.1) ends,
    stops_of_ends (fun _ blank => (of_isBlank blank).2.2.2) ends⟩

theorem ignores_digits (ends : Stops (!isBlank ·) tail) (h : take.Ignores tail)
    : (takeDigits take).Ignores tail := by
  obtain ⟨digit, _⟩ := stops_number ends
  exact (h.many digit).one digit

theorem ignores_sign (ends : Stops (!isBlank ·) tail) (h : take.Ignores tail)
    : (takeSign take).Ignores tail := by
  obtain ⟨_, sign, _⟩ := stops_number ends
  exact (h.one sign).orElse h

theorem ignores_point (ends : Stops (!isBlank ·) tail) (h : take.Ignores tail)
    : (Taker.one isPoint take).Ignores tail := by
  obtain ⟨_, _, point, _⟩ := stops_number ends
  exact h.one point

theorem ignores_optional (h : take.Ignores tail) : (takeOptional take).Ignores tail :=
  h.orElse Taker.ignores_stop

theorem ignores_scientific (ends : Stops (!isBlank ·) tail) : takeScientific.Ignores tail := by
  obtain ⟨digit, _, _, mark⟩ := stops_number ends
  have exponent : takeExponent.Ignores tail :=
    (ignores_sign ends (ignores_digits ends Taker.ignores_stop)).one mark
  have fraction := ignores_point ends ((ignores_optional exponent).many digit)
  exact ignores_sign ends (ignores_digits ends (ignores_optional fraction))

/-- Whether a number starts with a digit does not depend on what comes after a blank. -/
theorem startsNumber_append_tail (ends : Stops (!isBlank ·) tail) (text : List Char)
    : startsNumber (text ++ tail) = startsNumber text := by
  obtain ⟨digit, sign, _⟩ := stops_number ends
  rcases text with _ | ⟨c, _ | ⟨d, text⟩⟩
  · cases tail with
    | nil => rfl
    | cons d tail => simp [startsNumber, stops_cons.1 digit, stops_cons.1 sign]
  · cases tail with
    | nil => rfl
    | cons d tail => simp [startsNumber, stops_cons.1 digit]
  · rfl

/-- A value text that is taken of a text is taken before a blank too, unless it is a name. -/
theorem takeValue_append_tail (numeric : class' ≠ .name) (ends : Stops (!isBlank ·) tail)
    (taken : takeValue text class' = some (source, rest))
    : takeValue (text ++ tail) class' = some (source, rest ++ tail) := by
  obtain ⟨digit, _⟩ := stops_number ends
  have reals (taken : takeValue text .real = some (source, rest))
      : takeValue (text ++ tail) .real = some (source, rest ++ tail) := by
    rw [takeValue] at taken ⊢
    rw [startsNumber_append_tail ends]
    split
    · rename_i starts
      rw [if_pos starts] at taken
      rw [ignores_scientific ends, taken]
      rfl
    · rename_i other
      rw [if_neg other] at taken
      have decimals := ignores_point ends (Taker.ignores_stop.many digit)
      have whole := ignores_digits ends (ignores_optional decimals)
      have point := ignores_point ends (ignores_digits ends Taker.ignores_stop)
      exact (ignores_sign ends (whole.orElse point)).after_many rfl taken
  have natural (taken : takeNatural text = some (source, rest))
      : takeNatural (text ++ tail) = some (source, rest ++ tail) :=
    (ignores_digits ends Taker.ignores_stop).after_many rfl taken
  cases class' with
  | real => exact reals taken
  | position => exact reals taken
  | code =>
      have decimal := ignores_point ends (Taker.ignores_stop.one digit)
      exact (ignores_digits ends (ignores_optional decimal)).after_many rfl taken
  | integer => exact natural taken
  | tool => exact natural taken
  | name => contradiction

end BeforeBlank

-----------------------------------------------------------------------------------------
-- Reading joined texts
-----------------------------------------------------------------------------------------

section Joined

variable (xyDecimals : Precision) (verify : Bool) {left right tail text rest : List Char}
  {word : Word} {words : List Word}

/-- A step that takes a word takes it before a blank too. -/
theorem take_append_tail (free : NameFree text) (ends : Stops (!isBlank ·) tail)
    (step : Step.take { xyDecimals, verify } text = .word word rest)
    : Step.take { xyDecimals, verify } (text ++ tail) = .word word (rest ++ tail) := by
  obtain ⟨c, after, letter, source, value, start, found, taken, denotes, rfl⟩ :=
    (take_eq_word_iff xyDecimals verify).1 step
  have inside : c ∈ text := (List.dropWhile_sublist isBlank).subset (by simp [start])
  have start' : (text ++ tail).dropWhile isBlank = c :: (after ++ tail) := by
    rw [List.dropWhile_append, start]
    rfl
  have taken' := takeValue_append_tail (free.class_ne_name inside found) ends taken
  exact (take_eq_word_iff xyDecimals verify).2
    ⟨c, after ++ tail, letter, source, value, start', found, taken', denotes, rfl⟩

/-- A text that can be read, a blank and any text are scanned as the words of the first text and
then as the second one. By induction on the words of the first text; only blanks are left of it.
-/
theorem scansAgree_append (free : NameFree left)
    (read : readWords { xyDecimals, verify } left = .ok words)
    : ScansAgree (scanWords { xyDecimals, verify } (left ++ ' ' :: right))
        (words ++ (scanWords { xyDecimals, verify } right).1,
          (scanWords { xyDecimals, verify } right).2) := by
  induction words generalizing left with
  | nil =>
      have blanks := blank_of_readWords_nil read
      refine scansAgree_of_trimStart ?_
      rw [trimStart, List.dropWhile_append_of_pos blanks, List.dropWhile_cons_of_pos rfl, trimStart]
  | cons word words ih =>
      obtain ⟨rest, step, more⟩ := take_of_readWords read
      obtain ⟨piece, _, split, _⟩ := Step.take_eq_word step
      have later := ih (split ▸ free).of_append more
      rw [scanWords_of_word (take_append_tail xyDecimals verify free (stops_cons.2 rfl) step)]
      exact later.append [word]

/-- Reading goes from left to right over texts with a space between them. Where the first text has
no names and can be read, the joined text yields the words of the first text and then those of the
second, whatever that is; it can be read exactly if the second text can, and otherwise fails with
an error of the same kind.
-/
theorem reads_joined (free : NameFree left)
    (read : readWords { xyDecimals, verify } left = .ok words) (right : List Char)
    : (scanWords { xyDecimals, verify } (left ++ ' ' :: right)).1
        = words ++ (scanWords { xyDecimals, verify } right).1
      ∧ (scanWords { xyDecimals, verify } (left ++ ' ' :: right)).2.map Error.kind
        = (scanWords { xyDecimals, verify } right).2.map Error.kind
      ∧ (readWords { xyDecimals, verify } (left ++ ' ' :: right)).mapError Error.kind
        = ((readWords { xyDecimals, verify } right).map (words ++ ·)).mapError Error.kind := by
  have agree : ScansAgree (scanWords { xyDecimals, verify } (left ++ ' ' :: right))
      (words ++ (scanWords { xyDecimals, verify } right).1,
        (scanWords { xyDecimals, verify } right).2) :=
    scansAgree_append xyDecimals verify free read
  exact ⟨agree.words, agree.kinds, agree.readWords⟩

end Joined

/-- A point at the end of a text and an exponent after it stay apart. -/
theorem reads_joined_position
    : NameFree "g1x5.".toList
      ∧ ∃ words, readWords {} "g1x5.".toList = .ok words
        ∧ (scanWords {} "g1x5. e3#".toList).1 = words ++ (scanWords {} "e3#".toList).1 := by
  have free : NameFree "g1x5.".toList := by decide
  have accepted : (readWords {} "g1x5.".toList).isOk := by decide +kernel
  obtain ⟨words, read⟩ := exists_of_isOk accepted
  exact ⟨free, words, read, (reads_joined .standard true free read "e3#".toList).1⟩

end LinuxCnc
end Gcode
