import Gcode.Text.Hex
import Gcode.Text.Json
import Mathlib.Data.List.GetD

/-! Strings in JSON can be read back, whatever comes after them, and are on one line. -/

namespace Gcode.Text

variable {c d : Char} {text other rest after : List Char}

end Gcode.Text
