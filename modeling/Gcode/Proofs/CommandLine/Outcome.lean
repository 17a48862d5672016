import Gcode.Proofs.Answer
import Gcode.Proofs.CommandLine.LogFilter
import Gcode.Proofs.CommandLine.Report
import Gcode.Proofs.CommandLine.Setup
import Gcode.Proofs.Document

/-! What a run leaves behind.
All that can keep a run from formatting is found out before anything is written, so a run either
writes nothing and says why, or writes all of its inputs in order. What is wrong with a line is told
once and then makes the run fail, but does not stop it.
-/

namespace Gcode.CommandLine

variable {request : Request} {surroundings : Surroundings} {settings : Settings}
  {inputs : List Input} {input : Input}

-----------------------------------------------------------------------------------------
-- What keeps a run from formatting
-----------------------------------------------------------------------------------------

/-- The records of what is wrong with inputs, one for each diagnostic and in order. -/
def records (settings : Settings) (inputs : List Input) : List LogRecord :=
  inputs.flatMap fun input =>
    (Document.format settings input.content).2.map (Diagnostic.record input.name)

/-- The records of the dialect files that were skipped. -/
def skippedRecords (request : Request) (surroundings : Surroundings) (xyDecimals : Precision)
    : List LogRecord :=
  (setUp request surroundings xyDecimals).1.map fun skipped => skipped.2.record skipped.1

theorem format_eq {xyDecimals : Precision} (given : precision request = .ok xyDecimals)
    : format request surroundings
      = { formatWith request surroundings (setUp request surroundings xyDecimals).2 with
          log :=
            (logFilter request surroundings).messages
                (skippedRecords request surroundings xyDecimals)
              ++ (formatWith request surroundings
                    (setUp request surroundings xyDecimals).2).log } := by
  rw [format, given]
  rfl

end Gcode.CommandLine
