import Gcode.Pattern.Bracket
import Gcode.Pattern.Size
import Gcode.Text.Alphabetic

/-! Reading patterns from their text.
A pattern is read from left to right with a stack of open groups; nothing is returned for text
that is no pattern.
-/

namespace Gcode.Pattern

/-! ### Repetitions -/

/-- A count of at most 32 bits, with blanks around it. -/
def readCount (text : List Char) : Option Nat × List Char :=
  let text := Text.trimStart text
  let count := (Nat.ofDigitChars 10 (text.takeWhile Char.isDigit) 0 : Nat)
  let rest := Text.trimStart (text.dropWhile Char.isDigit)
  (if text.takeWhile Char.isDigit ≠ [] ∧ count < Nat.pow 2 32 then some count else none, rest)

/-- The bounds of a repetition after its opening brace. -/
def readBounds? (text : List Char) : Option ((Nat × Option Nat) × List Char) := do
  let (first, rest) := readCount text
  let least ← first
  match rest with
  | '}' :: rest => some ((least, some least), rest)
  | ',' :: '}' :: rest => some ((least, none), rest)
  | ',' :: rest =>
      match readCount rest with
      | (some most, '}' :: rest) => if least ≤ most then some ((least, some most), rest) else none
      | _ => none
  | _ => none

/-! ### Groups and the whole pattern -/

/-- A part of a pattern. -/
structure Item where
  expr : Nested Expr
  /-- A change of options matches the empty text but cannot be repeated. -/
  repeatable : Bool := true

/-- A group that is still open: its number if it has one, the alternatives finished before the
current one, newest first, and the items of the current one, newest first.
-/
structure OpenGroup where
  index : Option Nat := none
  flags : Flags := {}
  branches : List (Nested Expr) := []
  items : List Item := []

namespace OpenGroup

def add (group : OpenGroup) (e : Expr) (depth : Nat := 0) : OpenGroup :=
  { group with items := { expr := ⟨e, depth⟩ } :: group.items }

def branch (group : OpenGroup) : Nested Expr :=
  Nested.join Expr.inOrder (group.items.reverse.map Item.expr)

/-- What stands between the parentheses. -/
def content (group : OpenGroup) : Nested Expr :=
  Nested.join Expr.oneOf (group.branch :: group.branches).reverse

/-- Starts the next alternative. -/
def alternative (group : OpenGroup) : OpenGroup :=
  { group with branches := group.branch :: group.branches, items := [] }

/-- Adds a finished group. -/
def addGroup (group inner : OpenGroup) : OpenGroup :=
  let content := inner.content
  let e := match inner.index with
    | some index => .capture index content.value
    | none => content.value
  group.add e (content.depth + 1)

/-- Repeats the last item; a question mark after the bounds makes it reluctant. -/
def repeat? (group : OpenGroup) (least : Nat) (most : Option Nat) (rest : List Char)
    : Option (OpenGroup × List Char) :=
  match group.items with
  | { expr := body, repeatable := true } :: items =>
      let (greedy, rest) := match rest with
        | '?' :: rest => (false, rest)
        | _ => (true, rest)
      let e := Expr.repeated body.value least most greedy
      some (OpenGroup.add { group with items } e (body.depth + 1), rest)
  | _ => none

end OpenGroup

/-- A pattern that has been read in part: its open groups, innermost first, the number of groups
with a number, and the group names so far.
-/
structure Partial where
  inner : OpenGroup := {}
  outer : List OpenGroup := []
  groups : Nat := 0
  names : List (List Char) := []

namespace Partial

def withInner (p : Partial) (inner : OpenGroup) : Partial :=
  { p with inner }

/-- Opens a group without a number. -/
def openGroup (p : Partial) (flags : Flags) : Partial :=
  { p with inner := { flags }, outer := p.inner :: p.outer }

/-- Opens a group with the next number. -/
def openNumbered (p : Partial) : Partial :=
  { p with
    inner := { index := p.groups, flags := p.inner.flags }
    outer := p.inner :: p.outer
    groups := p.groups + 1 }

/-- Whether a text can name a group. -/
def isGroupName : List Char → Bool
  | [] => false
  | c :: rest =>
      (c == '_' || Text.isAlphabetic c)
        && rest.all fun c => Text.isAlphanumeric c || c ∈ ['_', '.', '[', ']']

/-- Opens a group whose name stands before the next angle bracket. -/
def openNamed? (p : Partial) (text : List Char) : Option (Partial × List Char) :=
  let name := text.takeWhile (· ≠ '>')
  match text.dropWhile (· ≠ '>') with
  | '>' :: rest =>
      if isGroupName name ∧ name ∉ p.names then
        some ({ p.openNumbered with names := name :: p.names }, rest)
      else none
  | _ => none

/-- Reads what follows an opening parenthesis. Conditions on the text around a place are no part
of a pattern.
-/
def openParenthesis? (p : Partial) : List Char → Option (Partial × List Char)
  | '?' :: 'P' :: '<' :: rest => p.openNamed? rest
  | '?' :: '<' :: '=' :: _ => none
  | '?' :: '<' :: '!' :: _ => none
  | '?' :: '<' :: rest => p.openNamed? rest
  | '?' :: rest =>
      match p.inner.flags.read? [] rest with
      | some (flags, true, rest) => some (p.openGroup flags, rest)
      | some (flags, false, rest) =>
          let change : Item := { expr := ⟨.empty, 0⟩, repeatable := false }
          some (p.withInner { p.inner with flags, items := change :: p.inner.items }, rest)
      | none => none
  | rest => some (p.openNumbered, rest)

def closeParenthesis? (p : Partial) : Option Partial :=
  match p.outer with
  | group :: outer => some { p with inner := group.addGroup p.inner, outer }
  | [] => none

/-- Reads the next item of a pattern. -/
def step? (p : Partial) : List Char → Option (Partial × List Char)
  | [] => none
  | '(' :: rest => p.openParenthesis? rest
  | ')' :: rest => p.closeParenthesis?.map (·, rest)
  | '|' :: rest => some (p.withInner p.inner.alternative, rest)
  | '*' :: rest => repeated 0 none rest
  | '+' :: rest => repeated 1 none rest
  | '?' :: rest => repeated 0 (some 1) rest
  | '{' :: rest => do
      let ((least, most), rest) ← readBounds? rest
      repeated least most rest
  | '[' :: rest =>
      let (level, rest) := OpenSet.start rest
      (readSet? p.inner.flags level [] rest).map fun (set, rest) =>
        (p.withInner (p.inner.add (.ofSet set.value) set.depth), rest)
  | '.' :: rest =>
      some (add (.ofSet (if p.inner.flags.dotAll then CharSet.none else .single '\n').compl), rest)
  | '^' :: rest =>
      some (add (.anchor (if p.inner.flags.multiLine then .lineStart else .textStart)), rest)
  | '$' :: rest =>
      some (add (.anchor (if p.inner.flags.multiLine then .lineEnd else .textEnd)), rest)
  | '\\' :: rest =>
      (readEscape? rest).map fun
        | (.char c, rest) => (add (char c), rest)
        | (.set set, rest) => (add (.ofSet set), rest)
        | (.anchor anchor, rest) => (add (.anchor anchor), rest)
  | c :: rest => some (add (char c), rest)
where
  add (e : Expr) : Partial := p.withInner (p.inner.add e)
  char (c : Char) : Expr := .ofSet (p.inner.flags.fold (.single c))
  repeated (least : Nat) (most : Option Nat) (rest : List Char) : Option (Partial × List Char) :=
    (p.inner.repeat? least most rest).map fun (inner, rest) => (p.withInner inner, rest)

/-- Reads a pattern to its end, where every group must be closed. -/
def finish? (p : Partial) (text : List Char) : Option (Nested Expr) :=
  if text = [] then
    if p.outer.isEmpty then some p.inner.content else none
  else
    match p.step? text with
    | none => none
    | some (p, rest) => if rest.length < text.length then finish? p rest else none
termination_by text.length

end Partial

/-- The number of levels to which the parts of a pattern may be nested. -/
def nestingLimit : Nat := 250

/-- The expression that a pattern text stands for. -/
def Expr.read? (text : List Char) : Option Expr :=
  match Partial.finish? {} text with
  | none => none
  | some e => if e.depth ≤ nestingLimit ∧ e.value.fits then some e.value else none

end Gcode.Pattern
