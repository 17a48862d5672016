import Gcode.Pattern.Expr
import Gcode.Text.Utf8

/-! The size of patterns.
A pattern is as large as the larger one of two automata that read UTF-8 byte by byte: one reads
texts forwards and keeps the groups, the other one reads them backwards. Patterns that are too
large are refused.
-/

namespace Gcode.Pattern

inductive Direction where
  | forwards
  | backwards
deriving DecidableEq

namespace Size

/-- What a state takes. -/
def state : Nat := 32

/-- What each way out of a fork takes beside the fork. -/
def way : Nat := 4

/-- What each range of bytes takes beside the state that reads one of several. -/
def byteRange : Nat := 8

/-- A fork with two ways. -/
def fork : Nat := state + 2 * way

/-- The start and the end of a group. -/
def group : Direction → Nat
  | .forwards => 2 * state
  | .backwards => 0

/-! ### Sets -/

/-- The byte ranges that sequences start with, each with what follows it. -/
def branches : List (List (Nat × Nat)) → List ((Nat × Nat) × List (List (Nat × Nat)))
  | [] => []
  | [] :: rest => branches rest
  | (bytes :: suffix) :: rest =>
      match branches rest with
      | [] => [(bytes, [suffix])]
      | (bytes', others) :: later =>
          if bytes = bytes' then (bytes, suffix :: others) :: later
          else (bytes, [suffix]) :: (bytes', others) :: later

/-- The states that read sequences of at most so many bytes, each given by the sequences that it
reads.
-/
def readers : Nat → List (List (Nat × Nat)) → List (List (List (Nat × Nat)))
  | 0, _ => []
  | length + 1, sequences =>
      match branches sequences with
      | [] => []
      | branches => sequences :: branches.flatMap fun branch => readers length branch.2

/-- The number of different starts of sequences of at most so many bytes. -/
def starts : Nat → List (List (Nat × Nat)) → Nat
  | 0, _ => 0
  | length + 1, sequences =>
      total ((branches sequences).map fun branch => 1 + starts length branch.2)

/-- A set of ASCII characters is read by one state. Other sets are read byte by byte: forwards,
states that read the same sequences are one state; backwards, bytes have one state where the
bytes before them are the same.
-/
def set (direction : Direction) (set : CharSet) : Nat :=
  let sequences := Text.utf8Ranges set.ranges
  if set.ranges.all fun range => range.2 ≤ 0x7F then
    2 * state + set.ranges.length * byteRange
  else
    match direction with
    | .forwards =>
        let readers := (readers 4 sequences).eraseDups
        state + total (readers.map fun reader => state + (branches reader).length * byteRange)
    | .backwards => 2 * state + sequences.length * way + starts 4 sequences * state

/-! ### Literals -/

/-- The bytes of a literal in the order in which they are read. -/
def bytes (direction : Direction) (chars : List Char) : List UInt8 :=
  let bytes := chars.flatMap String.utf8EncodeChar
  match direction with
  | .forwards => bytes
  | .backwards => bytes.reverse

/-- The words between the empty ones, where empty words before all others count once. -/
def runs (words : List (List UInt8)) : List (List (List UInt8)) :=
  let split (word : List UInt8) (runs : List (List (List UInt8))) :=
    match word, runs with
    | _ :: _, run :: rest => (word :: run) :: rest
    | _, runs => [] :: runs
  let words := match words with
    | [] :: rest => [] :: rest.dropWhile List.isEmpty
    | words => words
  words.foldr split [[]]

/-- What follows a byte in the words that start with it. -/
def after (byte : UInt8) (words : List (List UInt8)) : List (List UInt8) :=
  words.filterMap fun
    | first :: rest => if first = byte then some rest else none
    | [] => none

/-- Words of at most so many bytes share the states of their starts. An empty word divides the
words before it, which are preferred to it, from those after it.
-/
def words : Nat → List (List UInt8) → Nat
  | 0, _ => 0
  | length + 1, ws =>
      if ws.all List.isEmpty then 0
      else
        let run (ws : List (List UInt8)) : Nat :=
          let firsts := (ws.filterMap List.head?).eraseDups
          let reader := match firsts.length with
            | 0 => 0
            | 1 => state + way
            | count => state + way + count * byteRange
          reader + total (firsts.map fun first => words length (after first ws))
        state + ((runs ws).length - 1) * way + total ((runs ws).map run)

/-- The words of an expression that chooses from words. -/
def words? (e : Expr) : Option (List (List Char)) :=
  e.branches.mapM fun
    | .literal chars => some chars
    | _ => none

/-! ### Expressions -/

/-- The size of an expression. With `branch` it is one of several alternatives, or some of them,
and there is a way to each.
-/
def expr (direction : Direction) (branch : Bool) : Expr → Nat
  | .empty => entry + state
  | .literal chars => entry + (bytes direction chars).length * state
  | .set s => entry + set direction s
  | .anchor _ => entry + state
  | .capture _ body => entry + group direction + expr direction false body
  | .seq first second => entry + expr direction false first + expr direction false second
  | .alt first second =>
      let branches := expr direction true first + expr direction true second
      if branch then branches
      else
        match words? (.alt first second) with
        | none => 2 * state + branches
        | some ws =>
            let ws := ws.map (bytes direction)
            state + words (ws.foldl (fun most word => max most word.length) 0) ws
  | .rep body least most _ =>
      let once := expr direction false body
      entry + match least, most with
        | 0, some 1 => fork + state + once
        | 0, none => if body.shortest?.any (0 < ·) then fork + once else 2 * fork + state + once
        | least, none => fork + least * once
        | least, some most =>
            let always := if least = 0 then state else least * once
            if least = most then always else always + state + (most - least) * (fork + once)
where
  entry : Nat := if branch then way else 0

/-- Whether every match of an expression stands at an anchor when it starts, forwards or
backwards.
-/
def isAnchored (direction : Direction) : Expr → Bool
  | .anchor anchor =>
      match direction with
      | .forwards => anchor = .textStart
      | .backwards => anchor = .textEnd
  | .capture _ body => isAnchored direction body
  | .seq first second =>
      match direction with
      | .forwards => isAnchored direction first || first.alwaysEmpty && isAnchored direction second
      | .backwards =>
          isAnchored direction second || second.alwaysEmpty && isAnchored direction first
  | .alt first second => isAnchored direction first && isAnchored direction second
  | .rep body least _ _ => 0 < least && isAnchored direction body
  | _ => false

/-- The automaton of a whole pattern skips to a match, unless matches are anchored, and ends with
a state of its own.
-/
def automaton (direction : Direction) (e : Expr) : Nat :=
  let skip := if isAnchored direction e then state else fork + 2 * state + byteRange
  skip + group direction + expr direction false e + state

/-- The size of the largest patterns. -/
def limit : Nat := 10 * Nat.pow 2 20

end Size

/-- Whether a pattern is not too large. -/
def Expr.fits (e : Expr) : Bool :=
  Size.automaton .forwards e ≤ Size.limit && Size.automaton .backwards e ≤ Size.limit

end Gcode.Pattern
