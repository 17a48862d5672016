import Gcode.Dialect.Rule
import Gcode.Error

/-! Dialects: named tables of rules. -/

namespace Gcode

structure Dialect where
  name : String
  description : Option String
  rules : RuleTable

namespace Dialect

def letters (dialect : Dialect) : List Letter :=
  dialect.rules.letters

/-- The rule for a letter in either case. -/
def rule? (dialect : Dialect) (letter : Char) : Option (Letter × Rule) := do
  let letter ← Letter.ofChar? letter
  let rule ← dialect.rules letter
  return (letter, rule)

/-- The rule for a letter in either case, which must be defined. -/
def requireRule (dialect : Dialect) (letter : Char) : Except Error (Letter × Rule) :=
  match dialect.rule? letter with
  | some found => .ok found
  | none => .error (.unknownDialectLetter letter dialect.name)

/-- The letter of the next word with its rule and the text after it, if a word starts after the
blanks at the start of a text.
-/
def nextLetter? (dialect : Dialect) (text : List Char) : Option (Letter × Rule × List Char) :=
  match Text.trimStart text with
  | [] => none
  | c :: rest => (dialect.rule? c).map fun (letter, rule) => (letter, rule, rest)

theorem nextLetter?_length {dialect : Dialect} {text rest : List Char} {letter : Letter}
    {rule : Rule} (h : dialect.nextLetter? text = some (letter, rule, rest))
    : rest.length < text.length := by
  have hs : (Text.trimStart text).length ≤ text.length := (List.dropWhile_sublist _).length_le
  unfold nextLetter? at h
  split at h
  · contradiction
  · rename_i c tail ht
    obtain ⟨_, _, he⟩ := Option.map_eq_some_iff.1 h
    cases he
    simp only [ht, List.length_cons] at hs
    omega

/-- Adds a rule to the table of a dialect that is being defined. -/
def addRule (name : String) (table : RuleTable) (entry : Char × Rule) : Except Error RuleTable :=
  let (c, rule) := entry
  match Letter.ofChar? c with
  | none => .error (.invalidDialect name (.notALetter c))
  | some letter =>
      if rule.format.accepts rule.kind then .ok (table.insert letter rule)
      else .error (.invalidDialect name (.cannotRender c rule.kind rule.format))

/-- A dialect with rules for some letters, given in either case. Of two rules for a letter the
later one counts; every rule must be able to write its values, and there must be a rule.
-/
def ofRules (name : String) (description : Option String) (rules : List (Char × Rule))
    : Except Error Dialect := do
  let table ← rules.foldlM (addRule name) RuleTable.empty
  if table.letters.isEmpty then .error (.invalidDialect name .noLetters)
  else return { name, description, rules := table }

/-- Dialects pass for the same when they have the same name and define the same letters. -/
def same (left right : Dialect) : Bool :=
  left.name == right.name && left.letters == right.letters

end Dialect
end Gcode
