import Gcode.ConfigFile.Reader
import Gcode.ConfigFile.Record
import Gcode.Dialect.Basic

/-! Dialects defined in configuration files.
A file names its dialect, describes rules of letters, and may take all other rules over from a
dialect that is known already.
-/

namespace Gcode

/-- One rule as a file describes it. -/
structure RuleDefinition where
  letter : String
  kind : ValueKind
  pattern : String
  fallback : Option String
  format : ValueFormat
  description : String

structure DialectFile where
  name : String
  description : Option String
  /-- The dialect whose rules are taken over. -/
  inherits : Option String
  rules : List RuleDefinition

def ValueKind.ofName? : String → Option ValueKind
  | "integer" => some .integer
  | "real" => some .real
  | "text" => some .text
  | _ => none

def ValueFormat.ofName? : String → Option ValueFormat
  | "real" => some .real
  | "position" => some .position
  | "code" => some .code
  | "integer" => some .integer
  | "verbatim" => some .verbatim
  | _ => none

namespace RuleDefinition

def ofNode? (node : ConfigFile.Node) : Option RuleDefinition := do
  let record ← ConfigFile.Record.ofNode? 5 node
  return {
    letter := ← record.text? "letter" 0
    kind := ← (record.node? "kind" 1).bind (·.choice?) >>= ValueKind.ofName?
    pattern := ← record.text? "pattern" 2
    fallback := ← record.optionalText? "fallback" 3
    format := ← (record.node? "format" 4).bind (·.choice?) >>= ValueFormat.ofName?
    description := (← record.optionalText? "description" 5).getD "" }

/-- A pattern of a file, which must start with a caret. -/
def readPattern (source : String) : Except DialectFault Pattern :=
  if source.toList.head? ≠ some '^' then .error (.unanchoredPattern source)
  else
    match Pattern.read? source with
    | some pattern => .ok pattern
    | none => .error (.malformedPattern source)

def readLetter (text : String) : Except DialectFault Letter :=
  match text.toList with
  | [c] => (Letter.ofChar? c).elim (.error (.notASingleLetter text)) .ok
  | _ => .error (.notASingleLetter text)

/-- The letter and the rule that are defined. -/
def toRule (definition : RuleDefinition) : Except DialectFault (Letter × Rule) := do
  let letter ← readLetter definition.letter
  let pattern ← readPattern definition.pattern
  let fallback ← definition.fallback.mapM readPattern
  let { kind, format, description, .. } := definition
  return (letter, { kind, pattern, fallback, format, description })

end RuleDefinition

namespace DialectFile

def ofEntries? (entries : ConfigFile.Entries) : Option DialectFile := do
  let record ← ConfigFile.Record.ofNode? 3 (← entries.lookup "dialect")
  let rules ← match entries.lookup "words" with
    | none => some []
    | some node => node.items?
  return {
    name := ← record.text? "name" 0
    description := ← record.optionalText? "description" 1
    inherits := ← record.optionalText? "inherits" 2
    rules := ← rules.mapM RuleDefinition.ofNode? }

def read? (text : List Char) : Option DialectFile := do
  ofEntries? (← ConfigFile.read? text)

/-- The rules of a file over those of the dialect that it starts from. -/
def ruleTable (file : DialectFile) (base : Option Dialect) : Except DialectFault RuleTable :=
  file.rules.foldlM
    (fun table definition => do
      let (letter, rule) ← definition.toRule
      return table.insert letter rule)
    ((base.map Dialect.rules).getD RuleTable.empty)

/-- The dialect that a file defines, over the one that it starts from. -/
def toDialect (file : DialectFile) (base : Option Dialect) : Except Error Dialect := do
  let table ← (file.ruleTable base).mapError (.invalidDialect file.name)
  Dialect.ofRules file.name (file.description.or (base.bind Dialect.description))
    (table.entries.map fun (letter, rule) => (letter.char, rule))

end DialectFile

/-- The dialect of a file that stands for itself, without a dialect to start from. -/
def Dialect.read (text : List Char) : Except Error Dialect :=
  match DialectFile.read? text with
  | none => .error (.invalidDialect "<toml>" .malformedFile)
  | some file =>
      match file.inherits with
      | some base => .error (.unknownDialect base)
      | none => file.toDialect none

end Gcode
