import Gcode.Pattern.Escape
import Gcode.Pattern.Flags

/-! Bracketed sets of characters. -/

namespace Gcode.Pattern

/-- Something that has been read from a pattern, with the depth to which its parts are nested. -/
structure Nested (α : Type) where
  value : α
  depth : Nat

namespace Nested

/-- Parts side by side. They are one level below the whole, unless one part is the whole. -/
def join {α β : Type} (combine : List α → β) (parts : List (Nested α)) : Nested β :=
  ⟨combine (parts.map value), match parts with
    | [] => 0
    | [part] => part.depth
    | parts => parts.foldl (fun most part => max most part.depth) 0 + 1⟩

end Nested

/-- An operator between two parts of a bracketed set. -/
inductive SetOperator where
  | inter
  | diff
  | symmDiff

def SetOperator.apply : SetOperator → CharSet → CharSet → CharSet
  | inter => .inter
  | diff => .diff
  | symmDiff => .symmDiff

/-- A bracketed set that is still open: the operator that waits for its right side, with its
left side, and what has been read since, newest first.
-/
structure OpenSet where
  negated : Bool
  pending : Option (SetOperator × Nested CharSet)
  items : List (Nested CharSet)

namespace OpenSet

def add (level : OpenSet) (item : Nested CharSet) : OpenSet :=
  { level with items := item :: level.items }

/-- What has been read, once the waiting operator is applied. -/
def current (level : OpenSet) (flags : Flags) : Nested CharSet :=
  let items := Nested.join .unions level.items.reverse
  match level.pending with
  | none => items
  | some (operator, left) =>
      ⟨operator.apply (flags.fold left.value) (flags.fold items.value),
        max left.depth items.depth + 1⟩

def operate (level : OpenSet) (flags : Flags) (operator : SetOperator) : OpenSet :=
  { level with pending := some (operator, level.current flags), items := [] }

def close (level : OpenSet) (flags : Flags) : Nested CharSet :=
  let content := level.current flags
  let set := flags.fold content.value
  ⟨if level.negated then set.compl else set, content.depth + 1⟩

/-- Opens a set after its bracket: hyphens at its start are themselves, and so is a closing
bracket that would leave it empty.
-/
def start (text : List Char) : OpenSet × List Char :=
  let (negated, text) := match text with
    | '^' :: rest => (true, rest)
    | _ => (false, text)
  let hyphens := text.takeWhile (· = '-')
  let level : OpenSet := ⟨negated, none, hyphens.map fun c => ⟨.single c, 0⟩⟩
  match hyphens, text.dropWhile (· = '-') with
  | [], ']' :: rest => (level.add ⟨.single ']', 0⟩, rest)
  | _, rest => (level, rest)

end OpenSet

/-- One character of a set or one named set. -/
def readSetItem? : List Char → Option (Escape × List Char)
  | [] => none
  | '\\' :: rest => readEscape? rest
  | c :: rest => some (.char c, rest)

/-- An item of a set, or a range when a hyphen follows it that is not the last character and
not the first of the operator `--`.
-/
def readSetRange? (text : List Char) : Option (CharSet × List Char) := do
  let (first, rest) ← readSetItem? text
  let single : Option (CharSet × List Char) :=
    match first with
    | .char c => some (.single c, rest)
    | .set set => some (set, rest)
    | .anchor _ => none
  match rest with
  | '-' :: ']' :: _ => single
  | '-' :: '-' :: _ => single
  | '-' :: rest =>
      match first, ← readSetItem? rest with
      | .char c, (.char d, rest) => if c ≤ d then some (.range c d, rest) else none
      | _, _ => none
  | _ => single

/-- A set named in the style `[:alpha:]` or `[:^alpha:]`, after its first bracket. Other cases are
added to the named set before it is negated.
-/
def readNamedSet? (flags : Flags) : List Char → Option (CharSet × List Char)
  | ':' :: text =>
      let (negated, text) := match text with
        | '^' :: rest => (true, rest)
        | _ => (false, text)
      match text.dropWhile (· ≠ ':') with
      | ':' :: ']' :: rest =>
          (CharSet.named? (text.takeWhile (· ≠ ':'))).map fun set =>
            (if negated then (flags.fold set).compl else flags.fold set, rest)
      | _ => none
  | _ => none

/-- One step inside a bracketed set: either the sets that are open after it, the innermost one
first, or the whole set when its last bracket closes.
-/
def setStep (flags : Flags) (level : OpenSet) (outer : List OpenSet)
    : List Char → Option ((OpenSet × List OpenSet ⊕ Nested CharSet) × List Char)
  | '[' :: rest =>
      match readNamedSet? flags rest with
      | some (set, rest) => some (.inl (level.add ⟨set, 0⟩, outer), rest)
      | none =>
          let (inner, rest) := OpenSet.start rest
          some (.inl (inner, level :: outer), rest)
  | ']' :: rest =>
      match outer with
      | [] => some (.inr (level.close flags), rest)
      | next :: outer => some (.inl (next.add (level.close flags), outer), rest)
  | '&' :: '&' :: rest => some (.inl (level.operate flags .inter, outer), rest)
  | '-' :: '-' :: rest => some (.inl (level.operate flags .diff, outer), rest)
  | '~' :: '~' :: rest => some (.inl (level.operate flags .symmDiff, outer), rest)
  | text => (readSetRange? text).map fun (set, rest) => (.inl (level.add ⟨set, 0⟩, outer), rest)

/-- Reads a bracketed set to its end. -/
def readSet? (flags : Flags) (level : OpenSet) (outer : List OpenSet) (text : List Char)
    : Option (Nested CharSet × List Char) :=
  match setStep flags level outer text with
  | none => none
  | some (.inr set, rest) => some (set, rest)
  | some (.inl (level, outer), rest) =>
      if rest.length < text.length then readSet? flags level outer rest else none
termination_by text.length

end Gcode.Pattern
