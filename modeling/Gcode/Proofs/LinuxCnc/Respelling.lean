import Gcode.Proofs.LinuxCnc.Spacing
import Gcode.Proofs.Text.Respelling
import Gcode.Proofs.Word.Agreement

/-! Texts that differ in the case of letters and in the shape of runs of blanks are read alike.
What is taken of one is taken of the other with the same differences, and the value is the same: of
the characters of a number only the letter of an exponent has cases, and blanks come only before it.
-/

namespace Gcode

open Text

-----------------------------------------------------------------------------------------
-- Taking prefixes of respelled texts
-----------------------------------------------------------------------------------------

/-- What is taken of two texts is the same up to case, and the rests are respelled. -/
structure TakenAlike (first second : List Char × List Char) : Prop where
  source : first.1.map Char.toUpper = second.1.map Char.toUpper
  rest : Respelled first.2 second.2

/-- Blanks before what is taken may be other ones in the other text. -/
structure TakenAfterBlanks (first second : List Char × List Char) : Prop where
  source : (trimStart first.1).map Char.toUpper = (trimStart second.1).map Char.toUpper
  rest : Respelled first.2 second.2

theorem TakenAlike.afterBlanks {first second : List Char × List Char} (h : TakenAlike first second)
    : TakenAfterBlanks first second :=
  ⟨by rw [← trimStart_toUpper, h.source, trimStart_toUpper], h.rest⟩

theorem takenAfterBlanks_of_alike {left right : Option (List Char × List Char)}
    (h : Option.Rel TakenAlike left right) : Option.Rel TakenAfterBlanks left right := by
  cases h with
  | none => exact .none
  | some alike => exact .some alike.afterBlanks

theorem takenAfterBlanks_append {run run' : List Char} {left right : Option (List Char × List Char)}
    (hl : ∀ c ∈ run, isBlank c) (hr : ∀ c ∈ run', isBlank c)
    (h : Option.Rel TakenAfterBlanks left right)
    : Option.Rel TakenAfterBlanks (left.map fun (source, rest) => (run ++ source, rest))
        (right.map fun (source, rest) => (run' ++ source, rest)) := by
  cases h with
  | none => exact .none
  | some alike =>
      obtain ⟨source, rest⟩ := alike
      refine .some ⟨?_, rest⟩
      dsimp only
      rw [trimStart, trimStart, List.dropWhile_append_of_pos hl, List.dropWhile_append_of_pos hr]
      exact source

namespace Taker

variable {take next first second : Taker} {p : Char → Bool}

/-- Where something is taken of a text, the same is taken of a respelled text. -/
def Respects (take : Taker) : Prop :=
  ∀ left right, Respelled left right → Option.Rel TakenAlike (take left) (take right)

theorem respects_stop : Respects .stop :=
  fun _ _ respelled => .some ⟨rfl, respelled⟩

theorem takenAlike_cons {c d : Char} {left right : Option (List Char × List Char)}
    (same : c.toUpper = d.toUpper) (h : Option.Rel TakenAlike left right)
    : Option.Rel TakenAlike (left.map fun (source, rest) => (c :: source, rest))
        (right.map fun (source, rest) => (d :: source, rest)) := by
  cases h with
  | none => exact .none
  | some alike =>
      obtain ⟨source, rest⟩ := alike
      exact .some ⟨by simp [same, source], rest⟩

theorem apply_congr (caseless : ∀ c, p c.toUpper = p c) {c d : Char}
    (same : c.toUpper = d.toUpper) : p c = p d := by
  rw [← caseless c, same, caseless]

/-- Respelled texts start with a character of a kind, or neither of them does. -/
theorem any_head?_of_respelled (solid : ∀ c, isBlank c → p c = false)
    (caseless : ∀ c, p c.toUpper = p c) {left right : List Char} (h : Respelled left right)
    : left.head?.any p = right.head?.any p := by
  have none {text : List Char} (ends : Stops (!isBlank ·) text) : text.head?.any p = false := by
    have stop : Stops p text := stops_of_ends solid ends
    cases text with
    | nil => rfl
    | cons c text => simpa using stop
  cases h with
  | blanks hl hr => rw [none (ends_of_blanks hl), none (ends_of_blanks hr)]
  | between hl hr some some' rest =>
      rw [none (ends_of_run hl some _), none (ends_of_run hr some' _)]
  | solid _ same rest => exact apply_congr caseless same

theorem Respects.one (solid : ∀ c, isBlank c → p c = false) (caseless : ∀ c, p c.toUpper = p c)
    (h : next.Respects) : (Taker.one p next).Respects := by
  intro left right respelled
  cases respelled with
  | blanks hl hr =>
      rw [one_of_stops (stops_of_ends solid (ends_of_blanks hl)),
        one_of_stops (stops_of_ends solid (ends_of_blanks hr))]
      exact .none
  | between hl hr some some' rest =>
      rw [one_of_stops (stops_of_ends solid (ends_of_run hl some _)),
        one_of_stops (stops_of_ends solid (ends_of_run hr some' _))]
      exact .none
  | solid _ same rest =>
      rw [Taker.one, Taker.one, apply_congr caseless same]
      split
      · exact takenAlike_cons same (h _ _ rest)
      · exact .none

/-- By induction on how the texts are respelled: the run goes on in both or in none. -/
theorem Respects.many (solid : ∀ c, isBlank c → p c = false) (caseless : ∀ c, p c.toUpper = p c)
    (h : next.Respects) : (Taker.many p next).Respects := by
  intro left right respelled
  induction respelled with
  | blanks hl hr =>
      rw [many_of_stops (stops_of_ends solid (ends_of_blanks hl)),
        many_of_stops (stops_of_ends solid (ends_of_blanks hr))]
      exact h _ _ (.blanks hl hr)
  | between hl hr some some' rest _ =>
      rw [many_of_stops (stops_of_ends solid (ends_of_run hl some _)),
        many_of_stops (stops_of_ends solid (ends_of_run hr some' _))]
      exact h _ _ (.between hl hr some some' rest)
  | solid other same rest ih =>
      rw [Taker.many, Taker.many, apply_congr caseless same]
      split
      · exact takenAlike_cons same ih
      · exact h _ _ (.solid other same rest)

theorem Respects.orElse (h : first.Respects) (h' : second.Respects)
    : (Taker.orElse first second).Respects := by
  intro left right respelled
  have one := h left right respelled
  rw [Taker.orElse, Taker.orElse]
  generalize first left = found at one
  generalize first right = found' at one
  cases one with
  | none => exact h' left right respelled
  | some alike => exact .some alike

/-- Where something must come after blanks, it comes in both texts or in none. -/
theorem Respects.after_blanks (h : next.Respects) (more : next [] = none) {left right : List Char}
    (respelled : Respelled left right)
    : Option.Rel TakenAfterBlanks (Taker.many isBlank next left)
        (Taker.many isBlank next right) := by
  induction respelled with
  | @blanks left right hl hr =>
      have nothing {blanks : List Char} (hb : ∀ c ∈ blanks, isBlank c)
          : Taker.many isBlank next blanks = none := by
        rw [← List.append_nil blanks, many_append hb, Taker.many, more]
        rfl
      rw [nothing hl, nothing hr]
      exact .none
  | between hl hr _ _ _ ih =>
      rw [many_append hl, many_append hr]
      exact takenAfterBlanks_append hl hr ih
  | @solid c d left right solid same rest _ =>
      have solid' : isBlank d = false := (isBlank_congr same).symm.trans solid
      rw [many_of_stops (stops_cons.2 solid), many_of_stops (stops_cons.2 solid')]
      exact takenAfterBlanks_of_alike (h _ _ (.solid solid same rest))

end Taker

namespace LinuxCnc

open Form Number

-----------------------------------------------------------------------------------------
-- Value texts of respelled texts
-----------------------------------------------------------------------------------------

section Taking

variable {take : Taker} {left right : List Char} {class' : ValueClass}

theorem isDecimalDigit_toUpper (c : Char) : isDecimalDigit c.toUpper = isDecimalDigit c :=
  Letter.apply_toUpper (by decide +kernel) c

theorem isSignChar_toUpper (c : Char) : isSignChar c.toUpper = isSignChar c :=
  Letter.apply_toUpper rfl c

theorem isPoint_toUpper (c : Char) : isPoint c.toUpper = isPoint c :=
  Letter.apply_toUpper rfl c

theorem isMark_toUpper (c : Char) : isMark c.toUpper = isMark c :=
  Letter.apply_toUpper rfl c

theorem respects_decimals (h : take.Respects) : (Taker.many isDecimalDigit take).Respects :=
  h.many (fun _ blank => (of_isBlank blank).1) isDecimalDigit_toUpper

theorem respects_digit (h : take.Respects) : (Taker.one isDecimalDigit take).Respects :=
  h.one (fun _ blank => (of_isBlank blank).1) isDecimalDigit_toUpper

theorem respects_digits (h : take.Respects) : (takeDigits take).Respects :=
  respects_digit (respects_decimals h)

theorem respects_sign (h : take.Respects) : (takeSign take).Respects :=
  (h.one (fun _ blank => (of_isBlank blank).2.1) isSignChar_toUpper).orElse h

theorem respects_point (h : take.Respects) : (Taker.one isPoint take).Respects :=
  h.one (fun _ blank => (of_isBlank blank).2.2.1) isPoint_toUpper

theorem respects_optional (h : take.Respects) : (takeOptional take).Respects :=
  h.orElse Taker.respects_stop

theorem respects_scientific : takeScientific.Respects := by
  have exponent : takeExponent.Respects :=
    (respects_sign (respects_digits Taker.respects_stop)).one
      (fun _ blank => (of_isBlank blank).2.2.2) isMark_toUpper
  have fraction := respects_point (respects_decimals (respects_optional exponent))
  exact respects_sign (respects_digits (respects_optional fraction))

theorem startsNumber_of_ends {text : List Char} (ends : Stops (!isBlank ·) text)
    : startsNumber text = false := by
  cases text with
  | nil => rfl
  | cons c text =>
      have blank : isBlank c = true := by simpa using ends
      simp [startsNumber, of_isBlank blank]

/-- Respelled texts start with a digit, after at most one sign, or neither of them does. -/
theorem startsNumber_of_respelled (h : Respelled left right)
    : startsNumber left = startsNumber right := by
  cases h with
  | blanks hl hr =>
      rw [startsNumber_of_ends (ends_of_blanks hl), startsNumber_of_ends (ends_of_blanks hr)]
  | between hl hr some some' rest =>
      rw [startsNumber_of_ends (ends_of_run hl some _),
        startsNumber_of_ends (ends_of_run hr some' _)]
  | solid _ same rest =>
      have next := Taker.any_head?_of_respelled (fun _ blank => (of_isBlank blank).1)
        isDecimalDigit_toUpper rest
      rw [startsNumber, startsNumber, next, Taker.apply_congr isDecimalDigit_toUpper same,
        Taker.apply_congr isSignChar_toUpper same]

/-- The value texts of respelled texts are the same up to case, the blanks before them apart. Only
names have other characters with cases, and blanks among them.
-/
theorem takeValue_of_respelled (numeric : class' ≠ .name) (h : Respelled left right)
    : Option.Rel TakenAfterBlanks (takeValue left class') (takeValue right class') := by
  have reals : Option.Rel TakenAfterBlanks (takeValue left .real) (takeValue right .real) := by
    rw [takeValue, takeValue, startsNumber_of_respelled h]
    split
    · exact takenAfterBlanks_of_alike (respects_scientific left right h)
    · have decimals := respects_point (respects_decimals Taker.respects_stop)
      have whole := respects_digits (respects_optional decimals)
      have point := respects_point (respects_digits Taker.respects_stop)
      exact (respects_sign (whole.orElse point)).after_blanks rfl h
  have natural : Option.Rel TakenAfterBlanks (takeNatural left) (takeNatural right) :=
    (respects_digits Taker.respects_stop).after_blanks rfl h
  cases class' with
  | real => exact reals
  | position => exact reals
  | code =>
      have decimal := respects_point (respects_digit Taker.respects_stop)
      exact (respects_digits (respects_optional decimal)).after_blanks rfl h
  | integer => exact natural
  | tool => exact natural
  | name => contradiction

end Taking

-----------------------------------------------------------------------------------------
-- Values of respelled value texts
-----------------------------------------------------------------------------------------

section Values

variable {class' : ValueClass} {text left right source source' rest rest' : List Char}

theorem isDigit_toUpper (c : Char) : c.toUpper.isDigit = c.isDigit :=
  Letter.apply_toUpper (by decide) c

/-- A decimal digit is no small letter, so it has no upper case. -/
theorem toUpper_of_isDecimalDigit {c : Char} (digit : isDecimalDigit c) : c.toUpper = c := by
  have other : inRanges [(97, 122)] c = false := inRanges_eq_false (by decide +kernel) digit
  refine Letter.toUpper_of_not_small fun small => ?_
  rw [(inRanges_iff _ c).2 ⟨_, List.mem_cons_self, small⟩] at other
  contradiction

theorem filter_isDigit_toUpper (text : List Char)
    : (text.map Char.toUpper).filter Char.isDigit = text.filter Char.isDigit := by
  have same : Char.isDigit ∘ Char.toUpper = Char.isDigit := funext isDigit_toUpper
  rw [List.filter_map, same]
  refine List.map_congr_left (fun c member => ?_) |>.trans (List.map_id _)
  exact toUpper_of_isDecimalDigit (isDecimalDigit_of_isDigit (List.mem_filter.1 member).2)

theorem asciiDigits_toUpper (text : List Char)
    : AsciiDigits (text.map Char.toUpper) ↔ AsciiDigits text := by
  simp only [AsciiDigits, List.forall_mem_map, isDecimalDigit_toUpper, isDigit_toUpper]

theorem digitsValue_toUpper (text : List Char)
    : digitsValue (text.map Char.toUpper) = digitsValue text := by
  rw [digitsValue, filter_isDigit_toUpper, digitsValue]

theorem nearestReal_toUpper (source : List Char)
    : nearestReal (source.map Char.toUpper) = nearestReal source := by
  have marks : ((!isMark ·) ∘ Char.toUpper) = (!isMark ·) :=
    funext fun c => congrArg (!·) (isMark_toUpper c)
  have points : ((!isPoint ·) ∘ Char.toUpper) = (!isPoint ·) :=
    funext fun c => congrArg (!·) (isPoint_toUpper c)
  have front : significand (source.map Char.toUpper) = (significand source).map Char.toUpper := by
    rw [significand, List.takeWhile_map, marks, significand]
  have back : power (source.map Char.toUpper) = (power source).map Char.toUpper := by
    rw [power, List.dropWhile_map, marks, ← List.map_drop, power]
  have places (text : List Char)
      : decimalPlaces (text.map Char.toUpper) = decimalPlaces text := by
    rw [decimalPlaces, List.dropWhile_map, points, filter_isDigit_toUpper, decimalPlaces]
  have sign (text : List Char) : isNegative (text.map Char.toUpper) = isNegative text := by
    have minus : (('-' == ·) ∘ Char.toUpper) = ('-' == ·) :=
      funext (Letter.apply_toUpper (p := ('-' == ·)) rfl)
    rw [isNegative, List.contains_eq_any_beq, List.any_map, minus, ← List.contains_eq_any_beq,
      isNegative]
  have same : numeral (source.map Char.toUpper) = numeral source := by
    rw [numeral, front, back, digitsValue_toUpper, digitsValue_toUpper, sign, places, numeral]
  rw [nearestReal, same, front, sign, nearestReal]

/-- Value texts that are the same up to case, and up to the blanks before them, denote the same
value, unless they are names.
-/
theorem value?_of_respelled (numeric : class' ≠ .name)
    (longest : LongestPrefix (class'.form left) left source rest)
    (longest' : LongestPrefix (class'.form right) right source' rest')
    (same : (trimStart source).map Char.toUpper = (trimStart source').map Char.toUpper)
    : class'.value? source = class'.value? source' := by
  have apart (text : List Char) : class'.value? text = class'.value? (trimStart text) := by
    rw [← value?_append_blanks (fun _ => List.mem_takeWhile_imp) class' (trimStart text), trimStart,
      List.takeWhile_append_dropWhile]
  have real : realValue? (trimStart source) = realValue? (trimStart source') := by
    have upper (text : List Char) : realValue? (text.map Char.toUpper) = realValue? text := by
      simp only [realValue?, asciiDigits_toUpper, nearestReal_toUpper]
    rw [← upper, same, upper]
  have integer : integerValue? (trimStart source) = integerValue? (trimStart source') := by
    have upper (text : List Char) : integerValue? (text.map Char.toUpper) = integerValue? text := by
      simp only [integerValue?, asciiDigits_toUpper, digitsValue_toUpper]
    rw [← upper, same, upper]
  rw [apart source, apart source']
  cases class' with
  | real => exact real
  | position => exact real
  | code => exact real
  | integer => exact integer
  | tool =>
      -- the digits of a tool have no cases, so they are the same
      have digits {text source rest : List Char} (longest : LongestPrefix natural text source rest)
          : (trimStart source).map Char.toUpper = trimStart source := by
        obtain ⟨blanks, hb, body, hm, rfl⟩ := longest.member
        obtain ⟨some, all⟩ := mem_several.1 hm
        have start : trimStart (blanks ++ body) = body :=
          dropWhile_run hb (stops_of_solid fun c member => (of_isDecimalDigit (all c member)).1)
        change (trimStart (blanks ++ body)).map Char.toUpper = trimStart (blanks ++ body)
        rw [start]
        exact (List.map_congr_left fun c member => toUpper_of_isDecimalDigit (all c member)).trans
          (List.map_id _)
      have equal := (digits longest).symm.trans (same.trans (digits longest'))
      rw [equal]
  | name => contradiction

end Values

-----------------------------------------------------------------------------------------
-- Reading respelled texts
-----------------------------------------------------------------------------------------

section Reading

variable (xyDecimals : Precision) (verify : Bool) {left right : List Char}

/-- Texts without names that are respelled, the blanks at their starts apart. -/
structure ReadAlike (left right : List Char) : Prop where
  free : NameFree left
  respelled : Respelled (trimStart left) (trimStart right)

/-- The next step over respelled texts takes the same word, or ends in the same way. -/
theorem take_agree (alike : ReadAlike left right)
    : (Step.take { xyDecimals, verify } left).Agree ReadAlike
        (Step.take { xyDecimals, verify } right) := by
  have again (text : List Char) : trimStart (trimStart text) = text.dropWhile isBlank :=
    dropWhile_of_stops (stops_dropWhile isBlank text)
  rcases alike.respelled.trimStart_cases with
    ⟨nothing, nothing'⟩ | ⟨c, d, after, after', start, start', _, same, more⟩
  · rw [again] at nothing nothing'
    rw [take_of_blanks xyDecimals verify nothing, take_of_blanks xyDecimals verify nothing']
    exact .stop
  · rw [again] at start start'
    have found' : Letter.ofChar? d = Letter.ofChar? c := by
      unfold Letter.ofChar?
      simp only [same]
    cases found : Letter.ofChar? c with
    | none =>
        rw [found] at found'
        rw [take_of_other xyDecimals verify start found,
          take_of_other xyDecimals verify start' found']
        have kinds : (Error.leftoverText left).kind = (Error.leftoverText right).kind := rfl
        exact .fail kinds left right
    | some letter =>
        rw [found] at found'
        have parts : left.takeWhile isBlank ++ c :: after = left := takeWhile_append_start start
        have free : NameFree (c :: after) := NameFree.of_append (parts.symm ▸ alike.free)
        have numeric := free.class_ne_name List.mem_cons_self found
        have taken := takeValue_of_respelled numeric more
        have longest := found_takeValue (ValueClass.ofLetter letter) after
        have longest' := found_takeValue (ValueClass.ofLetter letter) after'
        rw [take_of_letter xyDecimals verify start found,
          take_of_letter xyDecimals verify start' found']
        generalize takeValue after (ValueClass.ofLetter letter) = first at taken longest
        generalize takeValue after' (ValueClass.ofLetter letter) = second at taken longest'
        cases taken with
        | none =>
            have kinds : (Error.wordValueInvalid letter.char after).kind
                = (Error.wordValueInvalid letter.char after').kind := rfl
            exact .fail kinds after after'
        | @some pair pair' taken =>
            obtain ⟨source, rest⟩ := pair
            obtain ⟨source', rest'⟩ := pair'
            dsimp only
            rw [← value?_of_respelled numeric longest longest' taken.source]
            cases (ValueClass.ofLetter letter).value? source with
            | none =>
                have kinds : (Error.wordValueInvalid letter.char source).kind
                    = (Error.wordValueInvalid letter.char source').kind := rfl
                exact .fail kinds after after'
            | some value =>
                have suffix : c :: source ++ rest = c :: after := congrArg (c :: ·) longest.split
                exact .word _ ⟨NameFree.of_append (suffix.symm ▸ free), taken.rest.trimStart⟩

theorem scansAgree_of_readAlike (alike : ReadAlike left right)
    : ScansAgree (scanWords { xyDecimals, verify } left) (scanWords { xyDecimals, verify } right) :=
  scansAgree_of_steps (fun _ _ => take_agree xyDecimals verify) alike

/-- Putting the blanks of a text in order does not change what is read. -/
theorem scansAgree_normalize (free : NameFree left)
    : ScansAgree (scanWords { xyDecimals, verify } left)
        (scanWords { xyDecimals, verify } (normalize left)) := by
  refine scansAgree_of_readAlike xyDecimals verify ⟨free, ?_⟩
  have again : trimStart (trimStart left) = trimStart left :=
    dropWhile_of_stops (stops_dropWhile isBlank left)
  rw [← again]
  exact (respelled_normalize left).trimStart

/-- The case of letters and the shape of runs of blanks do not matter, where there are no names.
Texts that are the same up to case once their blanks are in order yield the same words, and then
both end without an error or both with errors of one kind.
-/
theorem reads_respelled (free : NameFree left) (free' : NameFree right)
    (same : (normalize left).map Char.toUpper = (normalize right).map Char.toUpper)
    : (scanWords { xyDecimals, verify } left).1 = (scanWords { xyDecimals, verify } right).1
      ∧ (scanWords { xyDecimals, verify } left).2.map Error.kind
        = (scanWords { xyDecimals, verify } right).2.map Error.kind
      ∧ (readWords { xyDecimals, verify } left).mapError Error.kind
        = (readWords { xyDecimals, verify } right).mapError Error.kind := by
  have respelled : Respelled (normalize left) (normalize right) := respelled_of_toUpper same
  have upper := scansAgree_of_readAlike xyDecimals verify ⟨free.normalize, respelled.trimStart⟩
  have agree := (scansAgree_normalize xyDecimals verify free).trans
    (upper.trans (scansAgree_normalize xyDecimals verify free').symm)
  refine ⟨agree.words, agree.kinds, ?_⟩
  have whole := @ScansAgree.readWords { xyDecimals, verify } left right [] agree
  rw [whole]
  cases readWords { xyDecimals, verify } right <;> rfl

end Reading

/-- A small letter with a large exponent and the other way round, up to what is left over. -/
theorem reads_respelled_position
    : NameFree "g1 x1.5E2\t#".toList
      ∧ NameFree " G1\nX1.5e2  # ".toList
      ∧ (scanWords {} "g1 x1.5E2\t#".toList).1 = (scanWords {} " G1\nX1.5e2  # ".toList).1
      ∧ (scanWords {} "g1 x1.5E2\t#".toList).2.map Error.kind
        = (scanWords {} " G1\nX1.5e2  # ".toList).2.map Error.kind := by
  have free : NameFree "g1 x1.5E2\t#".toList := by decide
  have free' : NameFree " G1\nX1.5e2  # ".toList := by decide
  have same : (normalize "g1 x1.5E2\t#".toList).map Char.toUpper
      = (normalize " G1\nX1.5e2  # ".toList).map Char.toUpper := by decide +kernel
  obtain ⟨words, kinds, _⟩ := reads_respelled .standard true free free' same
  exact ⟨free, free', words, kinds⟩

end LinuxCnc
end Gcode
