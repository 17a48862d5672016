import Gcode.Number.Fixed
import Gcode.Precision
import Gcode.Value.Basic

/-! How the value of a letter is written in canonical text. -/

namespace Gcode

open Number

inductive ValueFormat where
  /-- A real number with three decimal places. -/
  | real
  /-- A real number with as many decimal places as the settings say. -/
  | position
  /-- A code, with at least two digits before the point. -/
  | code
  | integer
  /-- The value as it is. -/
  | verbatim
deriving DecidableEq

namespace ValueFormat

def name : ValueFormat → String
  | real => "Real"
  | position => "Position"
  | code => "Code"
  | integer => "Integer"
  | verbatim => "Verbatim"

/-- Whether values of a kind can be written in a format. -/
def accepts : ValueFormat → ValueKind → Bool
  | verbatim, _ => true
  | integer, kind => kind == .integer
  | _, kind => kind.isNumeric

/-- The number of decimal places of the format `real`. -/
def realPlaces : Nat := 3

def renderNumber (format : ValueFormat) (x : Binary64) (xyDecimals : Precision) : List Char :=
  match format with
  | real => x.toFixed realPlaces
  | position => x.toFixed xyDecimals.places
  | code => x.toCode
  | integer => intText x.truncate.toInt
  | verbatim => x.toText

/-- The canonical text of a value. Text is written as it is, and integers are written as real
numbers where the format is one of real numbers.
-/
def render (format : ValueFormat) (value : Value) (xyDecimals : Precision) : List Char :=
  match format, value with
  | _, .text t => t
  | verbatim, .integer n => intText n.toInt
  | integer, .integer n => intText n.toInt
  | format, .integer n => format.renderNumber (.ofInt n.toInt) xyDecimals
  | format, .real x => format.renderNumber x xyDecimals

end ValueFormat
end Gcode
