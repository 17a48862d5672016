import Gcode.Instruction.Basic

/-! Sorting words by a table of modal groups.
Every word of a code letter is an instruction of its own, and its group is looked up by letter
and code. All other words are modal parameters.
-/

namespace Gcode

open Number

structure ModalTable where
  codeLetters : List Char
  /-- Groups by letter and code, the newest entry first. Codes have at most one digit after the
  point, so their tenths tell them apart.
  -/
  groups : List ((Char × Int64) × String) := []

namespace ModalTable

/-- A table without groups; code letters are given in either case. -/
def ofLetters (letters : List Char) : ModalTable where
  codeLetters := letters.map Char.toUpper

/-- Puts codes of a letter into a group. -/
def withGroup (table : ModalTable) (letter : Char) (codes : List Binary64) (group : String)
    : ModalTable :=
  { table with
    groups := codes.foldl (fun groups code => ((letter.toUpper, code.tenths), group) :: groups)
      table.groups }

def isCode (table : ModalTable) (word : Word) : Bool :=
  word.letter.char ∈ table.codeLetters

def groupOf (table : ModalTable) (word : Word) : Option String :=
  word.value.toReal?.bind fun code => table.groups.lookup (word.letter.char, code.tenths)

def classify (table : ModalTable) : Classifier := fun words _ =>
  .ok {
    instructions := (words.filter table.isCode).map fun word => ⟨word, table.groupOf word, []⟩
    modalParams := words.filter fun word => !table.isCode word }

/-- A table entry for codes that are given in tenths. -/
def withTenths (table : ModalTable) (letter : Char) (tenths : List Nat) (group : String)
    : ModalTable :=
  table.withGroup letter (tenths.map fun n => Numeral.toBinary64 false ⟨n, -1⟩) group

/-- The modal groups of LinuxCNC. -/
def linuxCnc : ModalTable :=
  ofLetters ['G', 'M']
    |>.withTenths 'G'
        [0, 10, 20, 30, 330, 382, 383, 384, 385, 730, 760, 800, 810, 820, 830, 840, 850, 860, 870,
          880, 890]
        "motion"
    |>.withTenths 'G' [170, 180, 190, 171, 181, 191] "plane_selection"
    |>.withTenths 'G' [900, 910] "distance"
    |>.withTenths 'G' [901, 911] "arc_ijk_distance"
    |>.withTenths 'G' [930, 940, 950] "feed_rate_mode"
    |>.withTenths 'G' [200, 210] "units"
    |>.withTenths 'G' [400, 410, 420, 411, 421] "cutter_diameter_comp"
    |>.withTenths 'G' [430, 431, 490] "tool_length_offset"
    |>.withTenths 'G' [980, 990] "canned_cycles_return"
    |>.withTenths 'G' [540, 550, 560, 570, 580, 590, 591, 592, 593] "coordinate_system"
    |>.withTenths 'G' [610, 611, 640] "control_mode"
    |>.withTenths 'G' [960, 970] "spindle_speed_mode"
    |>.withTenths 'G' [70, 80] "lathe_diameter_mode"
    |>.withTenths 'M' [0, 10, 20, 300, 600] "stopping"
    |>.withTenths 'M' [60] "tool_change"
    |>.withTenths 'M' [30, 40, 50] "spindle"
    |>.withTenths 'M' [480, 490] "override_switches"

end ModalTable
end Gcode
