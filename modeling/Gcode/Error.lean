import Gcode.Number.Int64
import Gcode.Value.Format

/-! Everything that can be wrong with a word, a block, a dialect or a setting. -/

namespace Gcode

/-- What is wrong with the definition of a dialect. -/
inductive DialectFault where
  | notALetter (letter : Char)
  | notASingleLetter (letter : String)
  | cannotRender (letter : Char) (kind : ValueKind) (format : ValueFormat)
  | noLetters
  | unanchoredPattern (pattern : String)
  | malformedPattern (pattern : String)
  | malformedFile

def DialectFault.message : DialectFault → String
  | notALetter letter => s!"'{letter}' is not a letter"
  | notASingleLetter letter => s!"'{letter}' is not a single letter"
  | cannotRender letter kind format =>
      s!"letter '{letter}' cannot render {kind.name} values as {format.name}"
  | noLetters => "no letters defined"
  | unanchoredPattern pattern => s!"pattern '{pattern}' must start with '^'"
  | malformedPattern pattern => s!"regex parse error: '{pattern}' is not a pattern"
  | malformedFile => "TOML parse error: not a dialect file"

inductive Error where
  /-- A known letter is followed by text that is no value for it. -/
  | wordValueInvalid (letter : Char) (text : List Char)
  /-- Text is left over where no word starts. -/
  | leftoverText (remainder : List Char)
  /-- There should be exactly one word. -/
  | singleWordArity (count : Nat)
  /-- Two instructions of a block have the same word. -/
  | sameCodeInBlock (first second : List Char)
  /-- Two instructions of a block belong to one modal group. -/
  | sameModalGroupInBlock (group : String) (first second : List Char)
  | unknownDialectLetter (letter : Char) (dialect : String)
  | unknownDialect (name : String)
  | invalidPrecision (value : Int)
  | invalidDialect (dialect : String) (fault : DialectFault)

namespace Error

/-- The name of the kind of an error. -/
def kind : Error → String
  | wordValueInvalid .. => "word-value-invalid"
  | leftoverText _ => "leftover-text"
  | singleWordArity _ => "single-word-arity"
  | sameCodeInBlock .. => "same-code-in-block"
  | sameModalGroupInBlock .. => "same-modal-group-in-block"
  | unknownDialectLetter .. => "unknown-dialect-letter"
  | unknownDialect _ => "unknown-dialect"
  | invalidPrecision _ => "invalid-precision"
  | invalidDialect .. => "invalid-dialect"

def message : Error → String
  | wordValueInvalid letter text => s!"word '{letter}' value invalid: '{String.ofList text}'"
  | leftoverText remainder => s!"block code remaining '{String.ofList remainder}'"
  | singleWordArity count => s!"expected exactly one word, found {count}"
  | sameCodeInBlock first second =>
      s!"'{String.ofList first}' and '{String.ofList second}' cannot be in the same block"
  | sameModalGroupInBlock group first second =>
      s!"'{String.ofList first}' and '{String.ofList second}' cannot be in the same block"
        ++ s!" (modal group '{group}')"
  | unknownDialectLetter letter dialect =>
      s!"letter '{letter}' is not defined by dialect '{dialect}'"
  | unknownDialect name => s!"unknown dialect '{name}'"
  | invalidPrecision value =>
      s!"invalid decimal precision {value}: expected an integer between 0 and {Precision.max}"
  | invalidDialect dialect fault =>
      s!"invalid definition for dialect '{dialect}': {fault.message}"

end Error

/-- The precision with a number of places, which must be in range. -/
def Precision.ofInt (n : Int) : Except Error Precision :=
  match ofInt? n with
  | some precision => .ok precision
  | none => .error (.invalidPrecision n)

end Gcode
