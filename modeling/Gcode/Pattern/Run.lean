import Gcode.Pattern.Program

/-! Running a program over a text.
All ways through the program are followed together, in order of preference, and of two ways that
meet in an instruction the preferred one goes on. So the time it takes does not grow faster than
the text times the program.
-/

namespace Gcode.Pattern

/-- A place in a text: the characters before it, nearest first, and the characters after it. -/
structure Cursor where
  before : List Char
  after : List Char
deriving DecidableEq

/-- The text around a place. -/
def Cursor.whole (place : Cursor) : List Char :=
  place.before.reverse ++ place.after

namespace Anchor

/-- Whether a neighbour of a place is a word character. -/
def isWordAt (neighbour : Option Char) : Bool :=
  neighbour.any Text.isWordChar

def holds (anchor : Anchor) (place : Cursor) : Bool :=
  match anchor with
  | textStart => place.before.isEmpty
  | textEnd => place.after.isEmpty
  | lineStart => place.before.head?.all (· == '\n')
  | lineEnd => place.after.head?.all (· == '\n')
  | wordEdge => isWordAt place.before.head? != isWordAt place.after.head?
  | notWordEdge => isWordAt place.before.head? == isWordAt place.after.head?

end Anchor

/-- What a program has come to at a place: the sets that it waits to take a character of, with
the instructions after them, and whether it has matched. What is less preferred than a match is
not waited for.
-/
structure Front where
  waiting : List (CharSet × Nat)
  matched : Bool

namespace Program

/-- Goes on from the instructions in `todo` without taking a character, the preferred ones first.
The bits of `seen` are the instructions where the program has been at this place.
-/
def follow (program : Program) (place : Cursor)
    : Nat → List Nat → Nat → List (CharSet × Nat) → Front
  | 0, _, _, waiting => ⟨waiting.reverse, false⟩
  | _ + 1, [], _, waiting => ⟨waiting.reverse, false⟩
  | fuel + 1, here :: todo, seen, waiting =>
      if seen.testBit here then follow program place fuel todo seen waiting
      else
        let seen := seen ||| 1 <<< here
        let goal (distance : Int) : Nat := (here + distance).toNat
        match program[here]? with
        | none => ⟨waiting.reverse, true⟩
        | some (.take set) => follow program place fuel todo seen ((set, here + 1) :: waiting)
        | some (.check anchor) =>
            let todo := if anchor.holds place then (here + 1) :: todo else todo
            follow program place fuel todo seen waiting
        | some (.jump distance) => follow program place fuel (goal distance :: todo) seen waiting
        | some (.fork first second) =>
            follow program place fuel (goal first :: goal second :: todo) seen waiting

/-- What the program comes to from some instructions. Each instruction is left at most once and
then for two others at most, which bounds the number of steps.
-/
def front (program : Program) (place : Cursor) (todo : List Nat) : Front :=
  program.follow place (todo.length + 2 * program.size + 1) todo 0 []

/-- Runs the program from some instructions and a place to the end of its preferred match, which
is `best` where there is no other.
-/
def run (program : Program) (before : List Char) (todo : List Nat) (best : Option Cursor)
    : List Char → Option Cursor
  | [] => if (program.front ⟨before, []⟩ todo).matched then some ⟨before, []⟩ else best
  | c :: after =>
      let front := program.front ⟨before, c :: after⟩ todo
      let best := if front.matched then some ⟨before, c :: after⟩ else best
      let next := front.waiting.filterMap fun (set, next) =>
        if set.contains c then some next else none
      if next = [] then best else run program (c :: before) next best after

/-- The end of the match that starts at a place. -/
def matchAt? (program : Program) (place : Cursor) : Option Cursor :=
  program.run place.before [0] none place.after

/-- Whether there is a match after a place. -/
def occursAfter (program : Program) (before : List Char) : List Char → Bool
  | [] => (program.matchAt? ⟨before, []⟩).isSome
  | c :: after =>
      (program.matchAt? ⟨before, c :: after⟩).isSome || program.occursAfter (c :: before) after

end Program
end Gcode.Pattern
