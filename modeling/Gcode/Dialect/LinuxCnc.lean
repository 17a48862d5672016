import Gcode.Dialect.Basic

/-! The dialect of LinuxCNC, which is built in.
It is typically used for milling; other dialects usually start from it.
-/

namespace Gcode.Dialect.LinuxCnc

/-- Real numbers; an exponent needs a point before it. -/
def scientific : Pattern :=
  .ofSource "^[+-]?\\d+(?:\\.\\d*(?:[eE][+-]?\\d+)?)?" (by decide +kernel)

/-- Plain real numbers, after blanks and with or without digits before the point. -/
def plain : Pattern :=
  .ofSource "^\\s*[+-]?(?:\\d+\\.?\\d*|\\.\\d+)" (by decide +kernel)

def positiveInteger : Pattern :=
  .ofSource "^\\s*\\d+" (by decide +kernel)

/-- Codes are never negative and have at most one digit after the point. -/
def codeNumber : Pattern :=
  .ofSource "^\\s*\\d+(?:\\.\\d)?" (by decide +kernel)

/-- The rest of the line. -/
def restOfLine : Pattern :=
  .ofSource "^.+$" (by decide +kernel)

def real (description : String) : Rule where
  kind := .real
  pattern := scientific
  fallback := some plain
  format := .real
  description

def position (description : String) : Rule :=
  { real description with format := .position }

def code (description : String) : Rule where
  kind := .real
  pattern := codeNumber
  fallback := none
  format := .code
  description

def integer (description : String) : Rule where
  kind := .integer
  pattern := positiveInteger
  fallback := none
  format := .integer
  description

def text (pattern : Pattern) (description : String) : Rule where
  kind := .text
  pattern
  fallback := none
  format := .verbatim
  description

def rules : List (Char × Rule) :=
  [ -- rotational axes
    ('A', real "Absolute or incremental position of A axis (rotation around X)"),
    ('B', real "Absolute or incremental position of B axis (rotation around Y)"),
    ('C', real "Absolute or incremental position of C axis (rotation around Z)"),
    ('D', real "Diameter or radial offset used for cutter compensation"),
    -- feed rates
    ('E', real "Precision feedrate for threading on lathes"),
    ('F', real "Feedrate"),
    ('G', code "Address for preparatory commands"),
    ('H', code "Tool length offset"),
    -- arc centers
    ('I', real "Arc center in X for G2/G3 arcs; also a canned cycle parameter"),
    ('J', real "Arc center in Y for G2/G3 arcs; also a canned cycle parameter"),
    ('K', real "Arc center in Z for G2/G3 arcs; also a canned cycle parameter"),
    ('L', integer "Fixed cycle loop count; register to edit with G10"),
    ('M', code "Miscellaneous function"),
    ('N', integer "Line (block) number"),
    ('O', text restOfLine "Program name"),
    ('P', real "Parameter address for various G and M codes"),
    ('Q', real "Peck increment in canned cycles"),
    ('R', real "Arc radius, or retract height in canned cycles"),
    ('S', code "Spindle speed or surface speed, depending on mode"),
    ('T', text positiveInteger "Tool selection"),
    -- incremental axes
    ('U', real "Incremental axis corresponding to X"),
    ('V', real "Incremental axis corresponding to Y"),
    ('W', real "Incremental axis corresponding to Z"),
    -- linear axes
    ('X', position "Absolute or incremental position of X axis"),
    ('Y', position "Absolute or incremental position of Y axis"),
    ('Z', real "Absolute or incremental position of Z axis")]

def name : String := "linuxcnc"

end LinuxCnc

/-- The built-in dialect. -/
def linuxCnc : Dialect where
  name := LinuxCnc.name
  description := some "LinuxCNC, the basis of the other dialects"
  rules letter := LinuxCnc.rules.lookup letter.char

end Gcode.Dialect
