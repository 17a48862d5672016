import Gcode.CommandLine.Report
import Gcode.Proofs.Text.Blank
import Gcode.Proofs.Text.Json
import Std.Data.String.ToNat

/-! What the JSON report of a document tells: the name of the document and its diagnostics, in one
line.
-/

namespace Gcode.Diagnostic

open Text

variable {first second : Diagnostic} {diagnostics others : List Diagnostic}
  {document other : String} {rest after : List Char}

-----------------------------------------------------------------------------------------
-- One diagnostic
-----------------------------------------------------------------------------------------

end Gcode.Diagnostic
