import Gcode.Dialect.LinuxCnc
import Gcode.Proofs.LinuxCnc.Forms
import Gcode.Proofs.Pattern.Recognition

/-! The patterns of the built-in dialect take the longest prefix of their forms.
Each program is written out, and each list of instructions that it can go on from is given the
form of what may still follow.
-/

namespace Gcode.LinuxCnc

open Form Number Text
open Gcode.Pattern (Front Program Instruction)
open Gcode.Pattern.Front (agrees_of_branches)

-----------------------------------------------------------------------------------------
-- The sets that the programs take
-----------------------------------------------------------------------------------------

def signSet : CharSet :=
  ⟨[(43, 43), (45, 45)], by simp [Ascending]⟩

def pointSet : CharSet :=
  ⟨[(46, 46)], by simp [Ascending]⟩

def markSet : CharSet :=
  ⟨[(69, 69), (101, 101)], by simp [Ascending]⟩

section Sets

variable (c : Char)

@[simp] theorem contains_digit : CharSet.digit.contains c = isDecimalDigit c :=
  CharSet.contains_ofRanges digitRanges c

@[simp] theorem contains_blank : CharSet.blank.contains c = isBlank c :=
  CharSet.contains_ofRanges blankRanges c

/-- A range of one code point holds one character. -/
theorem beq_eq_inRange (d : Char) : (d.toNat ≤ c.toNat && c.toNat ≤ d.toNat) = (c == d) := by
  rw [Bool.eq_iff_iff, beq_iff_eq, ← Char.toNat_inj, Bool.and_eq_true, decide_eq_true_eq,
    decide_eq_true_eq]
  omega

@[simp] theorem contains_signSet : signSet.contains c = isSignChar c := by
  rw [isSignChar, ← beq_eq_inRange, ← beq_eq_inRange]
  simp [CharSet.contains, signSet, inRanges]

@[simp] theorem contains_pointSet : pointSet.contains c = isPoint c := by
  rw [isPoint, ← beq_eq_inRange]
  simp [CharSet.contains, pointSet, inRanges]

@[simp] theorem contains_markSet : markSet.contains c = isMark c := by
  rw [isMark, Bool.or_comm, ← beq_eq_inRange, ← beq_eq_inRange]
  simp [CharSet.contains, markSet, inRanges]

/-- Everything but a line feed. -/
def lineSet : CharSet :=
  ⟨[(0, 9), (11, 0x10FFFF)], by simp [Ascending]⟩

theorem contains_lineSet : lineSet.contains c = !(c == '\n') := by
  have bound : c.toNat ≤ 0x10FFFF := by
    have := c.valid
    simp only [UInt32.isValidChar, Nat.isValidChar] at this
    have := c.toNat_val
    omega
  rw [← beq_eq_inRange, Bool.eq_iff_iff]
  have feed : '\n'.toNat = 10 := rfl
  simp [CharSet.contains, lineSet, inRanges, feed]
  omega

end Sets

section Digits

variable {state : List Nat → Form → Prop} {goal : Nat}

theorem agrees_many (goes : state [goal] (many isDecimalDigit))
    : Front.Agrees ⟨[(.digit, goal)], true⟩ state (many isDecimalDigit) := by
  refine agrees_of_branches [(.digit, goal, many isDecimalDigit)] true rfl ?_ ?_ ?_ ?_
  · simp
  · simp
  · intro c text
    simp
  · simpa using goes

theorem agrees_digits (goes : state [goal] (many isDecimalDigit))
    : Front.Agrees ⟨[(.digit, goal)], false⟩ state digits := by
  refine agrees_of_branches [(.digit, goal, many isDecimalDigit)] false rfl ?_ ?_ ?_ ?_
  · simp
  · simp [digits]
  · intro c text
    simp [digits]
  · simpa using goes

end Digits

-----------------------------------------------------------------------------------------
-- Real numbers with an exponent
-----------------------------------------------------------------------------------------

def scientificProgram : Program :=
  #[.check .textStart, .fork 1 2, .take signSet, .take .digit, .fork (-1) 1, .fork 1 11,
    .take pointSet, .fork 1 3, .take .digit, .jump (-2), .fork 1 6, .take markSet, .fork 1 2,
    .take signSet, .take .digit, .fork (-1) 1]

theorem program_scientific : Dialect.LinuxCnc.scientific.program = scientificProgram := by
  decide +kernel

/-- Where the program of real numbers can go on, and what may follow there. -/
inductive ScientificState : List Nat → Form → Prop
  | start : ScientificState [1] scientific
  | unsigned : ScientificState [3] (digits * fraction)
  | whole : ScientificState [4] (many isDecimalDigit * fraction)
  | pointed : ScientificState [7] (many isDecimalDigit * optional exponent)
  | decimals : ScientificState [9] (many isDecimalDigit * optional exponent)
  | marked : ScientificState [12] (optional sign * digits)
  | signed : ScientificState [14] digits
  | power : ScientificState [15] (many isDecimalDigit)

theorem recognizes_scientific : scientificProgram.Recognizes ScientificState where
  nonempty state := by cases state <;> simp
  agrees state place := by
    cases state with
    | start =>
        refine agrees_of_branches
          [(signSet, 3, digits * fraction), (.digit, 4, many isDecimalDigit * fraction)] false
          rfl ?_ ?_ ?_ ?_
        · simpa using fun c isSign => (of_isSignChar isSign).1
        · simp [scientific, digits]
        · intro c text
          simp [scientific, mem_optional_mul, sign, digits, or_comm]
        · simpa using ⟨.unsigned, .whole⟩
    | unsigned =>
        refine agrees_of_branches [(.digit, 4, many isDecimalDigit * fraction)] false rfl ?_ ?_ ?_ ?_
        · simp
        · simp [digits]
        · intro c text
          simp [digits]
        · simpa using .whole
    | whole =>
        refine agrees_of_branches
          [(.digit, 4, many isDecimalDigit * fraction),
            (pointSet, 7, many isDecimalDigit * optional exponent)] true rfl ?_ ?_ ?_ ?_
        · simpa using fun c digit => (of_isDecimalDigit digit).2.2.1
        · simp [fraction]
        · intro c text
          simp [cons_mem_many_mul, fraction, point]
        · simpa using ⟨.whole, .pointed⟩
    | pointed =>
        refine agrees_of_branches
          [(.digit, 9, many isDecimalDigit * optional exponent),
            (markSet, 12, optional sign * digits)] true rfl ?_ ?_ ?_ ?_
        · simpa using fun c digit => (of_isDecimalDigit digit).2.2.2
        · simp
        · intro c text
          simp [cons_mem_many_mul, exponent]
        · simpa using ⟨.decimals, .marked⟩
    | decimals =>
        refine agrees_of_branches
          [(.digit, 9, many isDecimalDigit * optional exponent),
            (markSet, 12, optional sign * digits)] true rfl ?_ ?_ ?_ ?_
        · simpa using fun c digit => (of_isDecimalDigit digit).2.2.2
        · simp
        · intro c text
          simp [cons_mem_many_mul, exponent]
        · simpa using ⟨.decimals, .marked⟩
    | marked =>
        refine agrees_of_branches
          [(signSet, 14, digits), (.digit, 15, many isDecimalDigit)] false rfl ?_ ?_ ?_ ?_
        · simpa using fun c isSign => (of_isSignChar isSign).1
        · simp [digits]
        · intro c text
          simp [mem_optional_mul, sign, digits, or_comm]
        · simpa using ⟨.signed, .power⟩
    | signed => exact agrees_digits .power
    | power => exact agrees_many .power

theorem takes_scientific : Taker.Takes Dialect.LinuxCnc.scientific.match? scientific :=
  Pattern.takes_match? program_scientific recognizes_scientific .start fun _ => rfl

-----------------------------------------------------------------------------------------
-- Plain real numbers
-----------------------------------------------------------------------------------------

def plainProgram : Program :=
  #[.check .textStart, .fork 1 3, .take .blank, .jump (-2), .fork 1 2, .take signSet, .fork 1 9,
    .take .digit, .fork (-1) 1, .fork 1 2, .take pointSet, .fork 1 3, .take .digit, .jump (-2),
    .jump 4, .take pointSet, .take .digit, .fork (-1) 1]

theorem program_plain : Dialect.LinuxCnc.plain.program = plainProgram := by
  decide +kernel

/-- Where the program of plain real numbers can go on, and what may follow there. Digits can be
those before the point or, the point left out, those after it.
-/
inductive PlainState : List Nat → Form → Prop
  | start : PlainState [1] plain
  | blanks : PlainState [3] plain
  | unsigned : PlainState [6] decimal
  | whole : PlainState [8] (many isDecimalDigit * (optional point * many isDecimalDigit))
  | wholes : PlainState [8, 13] (many isDecimalDigit * (optional point * many isDecimalDigit))
  | pointed : PlainState [11] (many isDecimalDigit)
  | decimals : PlainState [13] (many isDecimalDigit)
  | bare : PlainState [16] digits
  | bareDecimals : PlainState [17] (many isDecimalDigit)

theorem cons_mem_decimal (c : Char) (text : List Char)
    : c :: text ∈ decimal
      ↔ isDecimalDigit c ∧ text ∈ many isDecimalDigit * (optional point * many isDecimalDigit)
        ∨ isPoint c ∧ text ∈ digits := by
  simp [decimal, digits, point, Language.mem_add]

theorem agrees_plain
    : Front.Agrees
        ⟨[(.blank, 3), (signSet, 6), (.digit, 8), (pointSet, 16)], false⟩ PlainState plain := by
  refine agrees_of_branches
    [(.blank, 3, plain), (signSet, 6, decimal),
      (.digit, 8, many isDecimalDigit * (optional point * many isDecimalDigit)),
      (pointSet, 16, digits)] false rfl ?_ ?_ ?_ ?_
  · simpa using ⟨⟨fun c blank => (of_isBlank blank).2.1, fun c blank => (of_isBlank blank).1,
        fun c blank => (of_isBlank blank).2.2.1⟩,
      ⟨fun c isSign => (of_isSignChar isSign).1, fun c isSign => (of_isSignChar isSign).2.2.1⟩,
      fun c digit => (of_isDecimalDigit digit).2.2.1⟩
  · simp [plain, decimal, digits, point, Language.mem_add]
  · intro c text
    simp [plain, cons_mem_many_mul, mem_optional_mul, sign, cons_mem_decimal]
    tauto
  · simpa using ⟨.blanks, .unsigned, .whole, .bare⟩

theorem agrees_whole
    : Front.Agrees ⟨[(.digit, 8), (pointSet, 11), (.digit, 13)], true⟩ PlainState
        (many isDecimalDigit * (optional point * many isDecimalDigit)) := by
  refine ⟨by simp, ?_⟩
  intro c
  by_cases digit : isDecimalDigit c
  · refine ⟨many isDecimalDigit * (optional point * many isDecimalDigit), fun text => ?_, .inl ?_⟩
    · have other := of_isDecimalDigit digit
      simp [cons_mem_many_mul, mem_optional_mul, point, digit, other]
      exact fun member => mem_mul_of_nil_mem member (by simp)
    · simpa [digit, of_isDecimalDigit digit] using .wholes
  by_cases isPoint : isPoint c
  · refine ⟨many isDecimalDigit, fun text => ?_, .inl ?_⟩
    · simp [cons_mem_many_mul, mem_optional_mul, point, digit, isPoint]
    · simpa [digit, isPoint] using .pointed
  · refine ⟨0, fun text => ?_, .inr ?_⟩
    · simp [cons_mem_many_mul, mem_optional_mul, point, digit, isPoint]
    · simp [digit, isPoint]

theorem recognizes_plain : plainProgram.Recognizes PlainState where
  nonempty state := by cases state <;> simp
  agrees state place := by
    cases state with
    | start => exact agrees_plain
    | blanks => exact agrees_plain
    | unsigned =>
        refine agrees_of_branches
          [(.digit, 8, many isDecimalDigit * (optional point * many isDecimalDigit)),
            (pointSet, 16, digits)] false rfl ?_ ?_ ?_ ?_
        · simpa using fun c digit => (of_isDecimalDigit digit).2.2.1
        · simp [decimal, digits, point, Language.mem_add]
        · intro c text
          simp [cons_mem_decimal]
        · simpa using ⟨.whole, .bare⟩
    | whole => exact agrees_whole
    | wholes => exact agrees_whole
    | pointed => exact agrees_many .decimals
    | decimals => exact agrees_many .decimals
    | bare => exact agrees_digits .bareDecimals
    | bareDecimals => exact agrees_many .bareDecimals

theorem takes_plain : Taker.Takes Dialect.LinuxCnc.plain.match? plain :=
  Pattern.takes_match? program_plain recognizes_plain .start fun _ => rfl

-----------------------------------------------------------------------------------------
-- Natural numbers
-----------------------------------------------------------------------------------------

def naturalProgram : Program :=
  #[.check .textStart, .fork 1 3, .take .blank, .jump (-2), .take .digit, .fork (-1) 1]

theorem program_natural : Dialect.LinuxCnc.positiveInteger.program = naturalProgram := by
  decide +kernel

/-- Where the program of natural numbers can go on, and what may follow there. -/
inductive NaturalState : List Nat → Form → Prop
  | start : NaturalState [1] natural
  | blanks : NaturalState [3] natural
  | digits : NaturalState [5] (many isDecimalDigit)

theorem agrees_natural : Front.Agrees ⟨[(.blank, 3), (.digit, 5)], false⟩ NaturalState natural := by
  refine agrees_of_branches [(.blank, 3, natural), (.digit, 5, many isDecimalDigit)] false rfl
    ?_ ?_ ?_ ?_
  · simpa using fun c blank => (of_isBlank blank).1
  · simp [natural, digits]
  · intro c text
    simp [natural, cons_mem_many_mul, digits]
  · simpa using ⟨.blanks, .digits⟩

theorem recognizes_natural : naturalProgram.Recognizes NaturalState where
  nonempty state := by cases state <;> simp
  agrees state place := by
    cases state with
    | start => exact agrees_natural
    | blanks => exact agrees_natural
    | digits => exact agrees_many .digits

theorem takes_natural : Taker.Takes Dialect.LinuxCnc.positiveInteger.match? natural :=
  Pattern.takes_match? program_natural recognizes_natural .start fun _ => rfl

-----------------------------------------------------------------------------------------
-- Codes
-----------------------------------------------------------------------------------------

def codeProgram : Program :=
  #[.check .textStart, .fork 1 3, .take .blank, .jump (-2), .take .digit, .fork (-1) 1, .fork 1 3,
    .take pointSet, .take .digit]

theorem program_code : Dialect.LinuxCnc.codeNumber.program = codeProgram := by
  decide +kernel

/-- Where the program of codes can go on, and what may follow there. -/
inductive CodeState : List Nat → Form → Prop
  | start : CodeState [1] code
  | blanks : CodeState [3] code
  | whole : CodeState [5] (many isDecimalDigit * optional (point * one isDecimalDigit))
  | pointed : CodeState [8] (one isDecimalDigit)
  | complete : CodeState [9] 1

theorem agrees_code : Front.Agrees ⟨[(.blank, 3), (.digit, 5)], false⟩ CodeState code := by
  refine agrees_of_branches
    [(.blank, 3, code),
      (.digit, 5, many isDecimalDigit * optional (point * one isDecimalDigit))] false rfl
    ?_ ?_ ?_ ?_
  · simpa using fun c blank => (of_isBlank blank).1
  · simp [code, digits]
  · intro c text
    simp [code, cons_mem_many_mul, digits]
  · simpa using ⟨.blanks, .whole⟩

theorem recognizes_code : codeProgram.Recognizes CodeState where
  nonempty state := by cases state <;> simp
  agrees state place := by
    cases state with
    | start => exact agrees_code
    | blanks => exact agrees_code
    | whole =>
        refine agrees_of_branches
          [(.digit, 5, many isDecimalDigit * optional (point * one isDecimalDigit)),
            (pointSet, 8, one isDecimalDigit)] true rfl ?_ ?_ ?_ ?_
        · simpa using fun c digit => (of_isDecimalDigit digit).2.2.1
        · simp
        · intro c text
          simp [cons_mem_many_mul, point]
        · simpa using ⟨.whole, .pointed⟩
    | pointed =>
        refine agrees_of_branches [(.digit, 9, 1)] false rfl ?_ ?_ ?_ ?_
        · simp
        · simp
        · intro c text
          simp [Language.mem_one]
        · simpa using .complete
    | complete =>
        refine agrees_of_branches [] true rfl ?_ ?_ ?_ ?_
        · simp
        · simp
        · intro c text
          simp [Language.mem_one]
        · simp

theorem takes_code : Taker.Takes Dialect.LinuxCnc.codeNumber.match? code :=
  Pattern.takes_match? program_code recognizes_code .start fun _ => rfl

-----------------------------------------------------------------------------------------
-- The rest of the line
-----------------------------------------------------------------------------------------

def lineProgram : Program :=
  #[.check .textStart, .take lineSet, .fork (-1) 1, .check .textEnd]

theorem program_line : Dialect.LinuxCnc.restOfLine.program = lineProgram := by
  decide +kernel

theorem front_line (place : Pattern.Cursor)
    : lineProgram.front place [2] = ⟨[(lineSet, 2)], place.after.isEmpty⟩ := by
  obtain ⟨before, after⟩ := place
  cases after <;> rfl

/-- After its first character the program goes on to the end of a text without line feeds. -/
theorem run_line (before after : List Char)
    : lineProgram.run before [2] none after
      = if '\n' ∈ after then none else some ⟨after.reverse ++ before, []⟩ := by
  induction after generalizing before with
  | nil => simp [Program.run, front_line]
  | cons c after ih =>
      by_cases feed : c = '\n'
      · simp [Program.run, front_line, contains_lineSet, feed]
      · simp [Program.run, front_line, contains_lineSet, feed, ih, Ne.symm feed]

/-- The rest of the line is all of a text, which must not be empty or have line feeds. -/
theorem match?_restOfLine (text : List Char)
    : Dialect.LinuxCnc.restOfLine.match? text
      = if text = [] ∨ '\n' ∈ text then none else some (text, []) := by
  have first (text : List Char)
      : lineProgram.front ⟨[], text⟩ [0] = ⟨[(lineSet, 2)], false⟩ := by
    cases text <;> rfl
  rw [Pattern.match?, program_line, Program.matchAt?]
  cases text with
  | nil => simp [Program.run, first]
  | cons c text =>
      by_cases feed : c = '\n'
      · simp [Program.run, first, contains_lineSet, feed]
      · by_cases more : '\n' ∈ text
        · simp [Program.run, first, contains_lineSet, feed, run_line, more]
        · simp [Program.run, first, contains_lineSet, feed, run_line, more, Ne.symm feed]

end Gcode.LinuxCnc
