import Gcode.Letter
import Gcode.Pattern.Extent
import Gcode.Value.Format

/-! The rule of a letter: which text is its value, and how the value is written. -/

namespace Gcode

structure Rule where
  kind : ValueKind
  pattern : Pattern
  /-- Tried where the pattern does not match. -/
  fallback : Option Pattern
  format : ValueFormat
  description : String

namespace Rule

/-- The value text at the start of a text, and the rest. -/
def match? (rule : Rule) (text : List Char) : Option (List Char × List Char) :=
  (rule.pattern.match? text).orElse fun _ => rule.fallback.bind (·.match? text)

/-- The value text and the text after it make up the text. -/
theorem match?_append {rule : Rule} {text source rest : List Char}
    (h : rule.match? text = some (source, rest)) : source ++ rest = text := by
  cases hp : rule.pattern.match? text with
  | some found =>
      simp only [match?, hp, Option.orElse_some, Option.some.injEq] at h
      exact Pattern.match?_append (hp.trans (congrArg some h))
  | none =>
      simp only [match?, hp, Option.orElse_none] at h
      obtain ⟨_, _, h⟩ := Option.bind_eq_some_iff.1 h
      exact Pattern.match?_append h

/-- The value that a value text denotes. -/
def read? (rule : Rule) (text : List Char) : Option Value :=
  Value.read? rule.kind text

end Rule

/-- A slot for the rule of every letter. -/
abbrev RuleTable := Letter → Option Rule

namespace RuleTable

def empty : RuleTable :=
  fun _ => none

/-- The table with one slot filled anew. -/
def insert (table : RuleTable) (letter : Letter) (rule : Rule) : RuleTable :=
  fun other => if other = letter then some rule else table other

/-- The letters whose slots are filled, in order. -/
def letters (table : RuleTable) : List Letter :=
  Letter.all.filter fun letter => (table letter).isSome

/-- The rules with their letters, in order. -/
def entries (table : RuleTable) : List (Letter × Rule) :=
  Letter.all.filterMap fun letter => (table letter).map (letter, ·)

end RuleTable
end Gcode
