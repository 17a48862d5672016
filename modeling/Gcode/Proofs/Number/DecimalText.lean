import Gcode.Number.Int64
import Gcode.Proofs.Number.Numeral
import Gcode.Proofs.Text.Kinds
import Gcode.Proofs.Text.Run

/-! Decimal texts read back: digits, a point among them, a sign before them and an exponent after
them.
-/

namespace Gcode.Number

open Text

-----------------------------------------------------------------------------------------
-- Digits
-----------------------------------------------------------------------------------------

theorem isDigit_of_mem_digits {n : Nat} {c : Char} (member : c ∈ digits n) : c.isDigit :=
  Nat.isDigit_of_mem_toDigits (by decide) (by decide) member

theorem digits_ne_nil (n : Nat) : digits n ≠ [] :=
  Nat.toDigits_ne_nil

theorem ofDigits_append (front back : List Char)
    : ofDigits (front ++ back) = ofDigits front * 10 ^ back.length + ofDigits back := by
  unfold ofDigits
  rw [Nat.ofDigitChars_append, Nat.ofDigitChars_eq_ofDigitChars_zero, Nat.mul_comm]

theorem ofDigits_replicate_zero (count : Nat) (text : List Char)
    : ofDigits (List.replicate count '0' ++ text) = ofDigits text := by
  unfold ofDigits
  rw [Nat.ofDigitChars_append, Nat.ofDigitChars_replicate_zero, Nat.mul_zero]

theorem isDigit_of_mem_paddedDigits {width n : Nat} {c : Char}
    (member : c ∈ paddedDigits width n) : c.isDigit := by
  rcases List.mem_append.1 member with zero | digit
  · rw [(List.mem_replicate.1 zero).2]
    rfl
  · exact isDigit_of_mem_digits digit

theorem ofDigits_paddedDigits (width n : Nat) : ofDigits (paddedDigits width n) = n := by
  rw [paddedDigits, ofDigits_replicate_zero, ofDigits_digits]

theorem length_paddedDigits {width n : Nat} (positive : 0 < width) (fits : n < 10 ^ width)
    : (paddedDigits width n).length = width := by
  have h : (digits n).length ≤ width :=
    (Nat.length_toDigits_le_iff (by decide) positive).2 fits
  rw [paddedDigits, List.length_append, List.length_replicate]
  omega

-----------------------------------------------------------------------------------------
-- Signs
-----------------------------------------------------------------------------------------

/-- An optional sign. -/
def IsSign (sign : List Char) : Prop :=
  sign = [] ∨ sign = ['+'] ∨ sign = ['-']

def isSignChar (c : Char) : Bool :=
  c == '+' || c == '-'

theorem IsSign.forall {P : Char → Prop} {sign : List Char} (hs : IsSign sign) (plus : P '+')
    (minus : P '-') : ∀ c ∈ sign, P c := by
  rcases hs with rfl | rfl | rfl
  · exact List.forall_mem_nil _
  · exact List.forall_mem_singleton.2 plus
  · exact List.forall_mem_singleton.2 minus

theorem isSign_signText (negative : Bool) : IsSign (signText negative) := by
  cases negative
  · exact .inl rfl
  · exact .inr (.inr rfl)

theorem mem_signText (negative : Bool) : decide ('-' ∈ signText negative) = negative := by
  cases negative <;> rfl

/-- A sign is told apart from a text that starts with no sign. -/
theorem splitSign_append {sign body : List Char} (hs : IsSign sign)
    (stop : Stops isSignChar body) : splitSign (sign ++ body) = (decide ('-' ∈ sign), body) := by
  rcases hs with rfl | rfl | rfl
  · cases body with
    | nil => rfl
    | cons c body =>
        have h := stops_cons.1 stop
        simp only [isSignChar, Bool.or_eq_false_iff, beq_eq_false_iff_ne] at h
        unfold splitSign
        simp only [List.nil_append]
        split <;> simp_all
  · rfl
  · rfl

theorem stops_isSignChar_of_isDigit {body : List Char} (all : ∀ c ∈ body, c.isDigit)
    : Stops isSignChar body := by
  intro c member
  have digit := all c (List.mem_of_mem_head? member)
  by_contra sign
  simp only [isSignChar, Bool.not_eq_false, Bool.or_eq_true, beq_iff_eq] at sign
  rcases sign with rfl | rfl <;> exact absurd digit (by decide)

theorem readDigits?_of_isDigit {text : List Char} (some : text ≠ [])
    (all : ∀ c ∈ text, c.isDigit) : readDigits? text = .some (ofDigits text) := by
  unfold readDigits?
  rw [if_pos ⟨some, List.all_eq_true.2 all⟩]

/-- Integers are read as their sign and digits say. -/
theorem readInt?_append {sign body : List Char} (hs : IsSign sign) (some : body ≠ [])
    (all : ∀ c ∈ body, c.isDigit)
    : readInt? (sign ++ body)
      = .some (if '-' ∈ sign then -(ofDigits body : Int) else ofDigits body) := by
  unfold readInt?
  rw [splitSign_append hs (stops_isSignChar_of_isDigit all)]
  dsimp only
  rw [readDigits?_of_isDigit some all]
  simp

/-- Digits with a value below `2 ^ 63` are an integer of 64 bits. -/
theorem toInt64?_eq (n : Int)
    : toInt64? n = if -2 ^ 63 ≤ n ∧ n < 2 ^ 63 then some (Int64.ofInt n) else none := by
  simp only [toInt64?, Int64.toInt_minValue, Int64.toInt_maxValue, Int.le_sub_one_iff]

theorem toInt64?_toInt (n : Int64) : toInt64? n.toInt = some n := by
  rw [toInt64?_eq, if_pos ⟨n.le_toInt, n.toInt_lt⟩, Int64.ofInt_toInt]

/-- An integer that fits keeps its value. -/
theorem toInt64?_eq_some_iff {m : Int} {n : Int64} : toInt64? m = some n ↔ n.toInt = m := by
  constructor
  · intro fits
    rw [toInt64?_eq] at fits
    split at fits
    · rename_i range
      rw [← Option.some.inj fits, Int64.toInt_ofInt_of_le range.1 range.2]
    · contradiction
  · rintro rfl
    exact toInt64?_toInt n

theorem readInt64?_of_isDigit {text : List Char} (some : text ≠ [])
    (all : ∀ c ∈ text, c.isDigit) : readInt64? text = toInt64? (ofDigits text) := by
  have h := readInt?_append (.inl rfl) some all
  rw [List.nil_append] at h
  unfold readInt64?
  rw [h, Option.bind_some, if_neg (List.not_mem_nil)]

/-- A character that is no digit, apart from a sign at the start, makes a text no integer. -/
theorem readInt?_eq_none {text : List Char} {c : Char} (member : c ∈ (splitSign text).2)
    (other : c.isDigit = false) : readInt? text = none := by
  have not_all : ¬ (splitSign text).2.all Char.isDigit := by
    intro all
    rw [List.all_eq_true.1 all c member] at other
    contradiction
  simp [readInt?, readDigits?, not_all]

theorem readInt64?_eq_none {text : List Char} {c : Char} (member : c ∈ (splitSign text).2)
    (other : c.isDigit = false) : readInt64? text = none := by
  rw [readInt64?, readInt?_eq_none member other]
  rfl

/-- Reading an integer that was written. -/
theorem readInt?_intText (n : Int) : readInt? (intText n) = some n := by
  have read := readInt?_append (isSign_signText (n < 0)) (digits_ne_nil n.natAbs)
    fun c => isDigit_of_mem_digits
  have minus : '-' ∈ signText (n < 0) ↔ n < 0 := decide_eq_decide.1 (mem_signText _)
  rw [intText, read, ofDigits_digits]
  simp only [minus, Option.some.injEq]
  split <;> omega

theorem readInt64?_intText (n : Int) : readInt64? (intText n) = toInt64? n := by
  rw [readInt64?, readInt?_intText, Option.bind_some]

-----------------------------------------------------------------------------------------
-- Numerals
-----------------------------------------------------------------------------------------

theorem splitPoint_whole {whole : List Char} (digits : ∀ c ∈ whole, c.isDigit)
    : splitPoint whole = (whole, [], []) := by
  unfold splitPoint
  rw [takeWhile_all digits, dropWhile_all digits]

theorem splitPoint_point {whole fraction tail : List Char} (hw : ∀ c ∈ whole, c.isDigit)
    (hf : ∀ c ∈ fraction, c.isDigit) (stop : Stops Char.isDigit tail)
    : splitPoint (whole ++ '.' :: (fraction ++ tail)) = (whole, fraction, tail) := by
  have point : Stops Char.isDigit ('.' :: (fraction ++ tail)) := stops_cons.2 rfl
  unfold splitPoint
  rw [takeWhile_run hw point, dropWhile_run hw point]
  simp [takeWhile_run hf stop, dropWhile_run hf stop]

/-- The parts of a text, with the point where it was, make up the text. -/
theorem splitPoint_append (text : List Char)
    : ∃ point, text = (splitPoint text).1 ++ (point ++ ((splitPoint text).2.1
        ++ (splitPoint text).2.2)) ∧ (point = [] ∨ point = ['.']) := by
  have whole := List.takeWhile_append_dropWhile (p := Char.isDigit) (l := text)
  unfold splitPoint
  split
  · rename_i rest hd
    refine ⟨['.'], ?_, .inr rfl⟩
    rw [hd] at whole
    simpa using whole.symm
  · exact ⟨[], by simp, .inl rfl⟩

theorem isDigit_of_mem_splitPoint {text : List Char} {c : Char}
    (member : c ∈ (splitPoint text).1 ++ (splitPoint text).2.1) : c.isDigit := by
  unfold splitPoint at member
  split at member
  · rcases List.mem_append.1 member with whole | decimals
    · exact of_mem_takeWhile whole
    · exact of_mem_takeWhile decimals
  · exact of_mem_takeWhile (by simpa using member)

theorem positional_eq (n places : Nat)
    : positional n places = if places = 0 then digits n
        else digits (n / 10 ^ places) ++ '.' :: paddedDigits places (n % 10 ^ places) :=
  rfl

theorem point_mem_positional (n : Nat) {places : Nat} (some : places ≠ 0)
    : '.' ∈ positional n places := by
  rw [positional_eq, if_neg some]
  simp

namespace Numeral

theorem read?_whole {whole : List Char} (some : whole ≠ []) (digits : ∀ c ∈ whole, c.isDigit)
    : read? whole = .some ⟨ofDigits whole, 0⟩ := by
  unfold read?
  rw [splitPoint_whole digits]
  dsimp only
  rw [List.append_nil, if_neg some]
  rfl

theorem read?_point {whole fraction tail : List Char} (some : whole ++ fraction ≠ [])
    (hw : ∀ c ∈ whole, c.isDigit) (hf : ∀ c ∈ fraction, c.isDigit)
    (stop : Stops Char.isDigit tail)
    : read? (whole ++ '.' :: (fraction ++ tail))
      = (readExponent? tail).map fun exponent =>
          ⟨ofDigits (whole ++ fraction), exponent - fraction.length⟩ := by
  unfold read?
  rw [splitPoint_point hw hf stop]
  dsimp only
  rw [if_neg some]

/-- A positional text reads as the numeral that it was written for. -/
theorem read?_positional (n places : Nat)
    : read? (positional n places) = some ⟨n, -(places : Int)⟩ := by
  rw [positional_eq]
  split
  · rename_i none
    rw [read?_whole (digits_ne_nil n) fun c => isDigit_of_mem_digits, ofDigits_digits, none]
    rfl
  · rename_i places_ne
    have positive : 0 < places := Nat.pos_of_ne_zero places_ne
    have fits : n % 10 ^ places < 10 ^ places := Nat.mod_lt _ (Binary64.ten_pow_pos places)
    have some : Number.digits (n / 10 ^ places) ++ paddedDigits places (n % 10 ^ places) ≠ [] := by
      simp [digits_ne_nil]
    have h := read?_point some (fun c => isDigit_of_mem_digits)
      (fun c => isDigit_of_mem_paddedDigits) stops_nil
    rw [List.append_nil] at h
    rw [h, ofDigits_append, ofDigits_digits, ofDigits_paddedDigits,
      length_paddedDigits positive fits, Nat.div_add_mod']
    simp [readExponent?]

/-- A zero before a text changes no numeral that the text reads as. -/
theorem read?_zero_cons {text : List Char} {n : Numeral} (h : read? text = some n)
    : read? ('0' :: text) = some n := by
  have split : splitPoint ('0' :: text)
      = ('0' :: (splitPoint text).1, (splitPoint text).2.1, (splitPoint text).2.2) := by
    have zero : Char.isDigit '0' = true := rfl
    unfold splitPoint
    rw [List.takeWhile_cons_of_pos zero, List.dropWhile_cons_of_pos zero]
    split <;> rfl
  have value (front : List Char) : ofDigits ('0' :: front) = ofDigits front :=
    ofDigits_replicate_zero 1 front
  unfold read? at h ⊢
  rw [split]
  generalize splitPoint text = parts at h ⊢
  obtain ⟨whole, fraction, rest⟩ := parts
  simp only [List.cons_append, value, reduceCtorEq, ↓reduceIte] at h ⊢
  split at h
  · contradiction
  · exact h

end Numeral

theorem stops_isSignChar_of_start {body : List Char}
    (start : ∃ c rest, body = c :: rest ∧ (isDecimalDigit c ∨ c = '.')) : Stops isSignChar body := by
  obtain ⟨c, rest, rfl, hc⟩ := start
  rw [stops_cons]
  rcases hc with digit | rfl
  · by_contra sign
    simp only [isSignChar, Bool.not_eq_false, Bool.or_eq_true, beq_iff_eq] at sign
    rcases sign with rfl | rfl <;> exact absurd digit (by decide)
  · rfl

/-- A number text that starts with a digit or a point is no name of an infinity or of NaN. -/
theorem Binary64.read?_append {sign body : List Char} (hs : IsSign sign)
    (start : ∃ c rest, body = c :: rest ∧ (isDecimalDigit c ∨ c = '.'))
    : Binary64.read? (sign ++ body)
      = (Numeral.read? body).map (·.toBinary64 (decide ('-' ∈ sign))) := by
  have hsign := stops_isSignChar_of_start start
  obtain ⟨c, rest, rfl, hc⟩ := start
  have small : c.toLower ≠ 'i' ∧ c.toLower ≠ 'n' := by
    rcases hc with digit | rfl
    · rw [toLower_of_isDecimalDigit digit]
      constructor <;> rintro rfl <;> exact absurd digit (by decide)
    · decide
  have named (name : List Char) (first : name.head? = some 'i' ∨ name.head? = some 'n')
      : String.ofList ((c :: rest).map Char.toLower) ≠ String.ofList name := by
    intro same
    have same := String.ofList_injective same
    rw [← same] at first
    simp only [List.map_cons, List.head?_cons, Option.some.injEq] at first
    exact first.elim small.1 small.2
  unfold Binary64.read?
  rw [splitSign_append hs hsign]
  dsimp only
  rw [if_neg, if_neg]
  · exact named "nan".toList (.inr rfl)
  · intro given
    rcases given with inf | infinity
    · exact named "inf".toList (.inl rfl) inf
    · exact named "infinity".toList (.inl rfl) infinity

end Gcode.Number
