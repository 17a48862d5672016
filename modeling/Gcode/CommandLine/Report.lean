import Gcode.CommandLine.LogFilter
import Gcode.Dialect.Registry
import Gcode.Document
import Gcode.Text.Json

/-! How the formatter tells what is wrong: in records of its log, or in JSON. -/

namespace Gcode

open CommandLine (LogRecord)

namespace LoadError

/-- The record of a dialect file that was skipped. -/
def record (path : String) (fault : LoadError) : LogRecord where
  part := "gcode_block::dialect::registry"
  message := s!"Failed to load dialect file {path}: {fault.message}"

end LoadError

namespace Diagnostic

/-- The record of a line of a document. -/
def record (document : String) (diagnostic : Diagnostic) : LogRecord where
  part := "gcode_block::cli"
  message := s!"{document}:{diagnostic.line}: [{diagnostic.error.kind}] {diagnostic.error.message}"

def toJson (diagnostic : Diagnostic) : List Char :=
  "\x7B\"kind\":".toList ++ Text.quoteJson diagnostic.error.kind.toList
    ++ ",\"line\":".toList ++ (toString diagnostic.line).toList
    ++ ",\"message\":".toList ++ Text.quoteJson diagnostic.error.message.toList ++ ['\x7D']

/-- The diagnostics of a document as one line of JSON; there is no line for none. -/
def jsonReport (document : String) (diagnostics : List Diagnostic) : List Char :=
  if diagnostics.isEmpty then []
  else
    "\x7B\"diagnostics\":[".toList ++ [','].intercalate (diagnostics.map toJson)
      ++ "],\"file\":".toList ++ Text.quoteJson document.toList ++ ['\x7D', '\n']

end Diagnostic
end Gcode
