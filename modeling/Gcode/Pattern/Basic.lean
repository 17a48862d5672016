import Gcode.Pattern.Reader
import Gcode.Pattern.Run

/-! Patterns of value texts: their source with the program that it stands for. -/

namespace Gcode

structure Pattern where
  source : String
  program : Pattern.Program
deriving DecidableEq

namespace Pattern

/-- The pattern with a source, if that is well formed. Of the syntax of patterns this leaves out
sets by Unicode property (`p` and `P` after a backslash), edges of words that are named in braces or
written as angle brackets, and the options `u`, `x`, `U` and `R`. A source with one of these is
refused like one that is malformed.
-/
def read? (source : String) : Option Pattern :=
  (Expr.read? source.toList).map fun e => ⟨source, e.program⟩

/-- A pattern whose source is known to be well formed. -/
def ofSource (source : String) (valid : (read? source).isSome) : Pattern :=
  (read? source).get valid

/-- The text that the pattern takes from the start of a text, and the rest. -/
def match? (p : Pattern) (text : List Char) : Option (List Char × List Char) :=
  (p.program.matchAt? ⟨[], text⟩).map fun place => (place.before.reverse, place.after)

/-- Whether the pattern matches anywhere in a text. -/
def occursIn (p : Pattern) (text : List Char) : Bool :=
  p.program.occursAfter [] text

end Pattern
end Gcode
