import Gcode.Text.Blank
import Gcode.Text.Case
import Gcode.Text.Digit
import Gcode.Text.WordChar

/-! Sets of characters, as patterns write them.
Main statement: putting ranges in order changes no member.
-/

namespace Gcode

/-- A set of characters as the ranges of their code points. -/
structure CharSet where
  ranges : List (Nat × Nat)
  ascending : Text.Ascending ranges
deriving DecidableEq

namespace CharSet

def contains (set : CharSet) (c : Char) : Bool :=
  Text.inRanges set.ranges c

def none : CharSet :=
  ⟨[], trivial⟩

/-- The set with one more range; a range that ends before it starts adds nothing. -/
def insert (set : CharSet) (first last : Nat) : CharSet :=
  if h : first ≤ last then ⟨Text.insertRange first last set.ranges, set.ascending.insertRange h⟩
  else set

def ofRanges (ranges : List (Nat × Nat)) : CharSet :=
  ranges.foldr (fun range set => set.insert range.1 range.2) none

theorem contains_insert (set : CharSet) (first last : Nat) (c : Char)
    : (set.insert first last).contains c
      = (decide (first ≤ c.toNat ∧ c.toNat ≤ last) || set.contains c) := by
  unfold insert
  split
  · rename_i h
    exact Text.inRanges_insertRange set.ascending h
  · rename_i h
    rw [decide_eq_false (by omega), Bool.false_or]

/-- Putting ranges in order changes no member. -/
theorem contains_ofRanges (ranges : List (Nat × Nat)) (c : Char)
    : (ofRanges ranges).contains c = Text.inRanges ranges c := by
  induction ranges with
  | nil => rfl
  | cons range rest ih =>
      have h : ofRanges (range :: rest) = (ofRanges rest).insert range.1 range.2 := rfl
      rw [h, contains_insert, ih]
      simp [Text.inRanges]

def range (first last : Char) : CharSet :=
  none.insert first.toNat last.toNat

def single (c : Char) : CharSet :=
  range c c

/-- The character of a set with one character. -/
def only? (set : CharSet) : Option Char :=
  match set.ranges with
  | [(first, last)] => if first = last then some (Char.ofNat first) else Option.none
  | _ => Option.none

def union (left right : CharSet) : CharSet :=
  left.ranges.foldr (fun range set => set.insert range.1 range.2) right

def unions (sets : List CharSet) : CharSet :=
  sets.foldr union none

def inter (left right : CharSet) : CharSet :=
  ofRanges (left.ranges.flatMap fun r => right.ranges.map fun s => (max r.1 s.1, min r.2 s.2))

/-- What is left of a range without the code points from `first` to `last`. No character lies
among the surrogates, so a rest never ends or starts there.
-/
def cut (first last : Nat) (range : Nat × Nat) : List (Nat × Nat) :=
  let before := if first = 0xE000 then 0xD7FF else first - 1
  let after := if last = 0xD7FF then 0xE000 else last + 1
  (if range.1 < first then [(range.1, min range.2 before)] else [])
    ++ (if last < range.2 then [(max range.1 after, range.2)] else [])

def diff (left right : CharSet) : CharSet :=
  ofRanges (right.ranges.foldl (fun rest range => rest.flatMap (cut range.1 range.2)) left.ranges)

def symmDiff (left right : CharSet) : CharSet :=
  (left.union right).diff (left.inter right)

def compl (set : CharSet) : CharSet :=
  (range '\x00' (Char.ofNat 0x10FFFF)).diff set

/-- The characters of a set and the same letters in other cases. -/
def anyCase (set : CharSet) : CharSet :=
  let among (set : CharSet) (code : Nat) : Bool := set.contains (Char.ofNat code)
  let single (code : Nat) : Nat × Nat := (code, code)
  let folded := set.union <| ofRanges <| Text.foldPairs.filterMap fun (code, folded) =>
    if among set code then some (single folded) else Option.none
  folded.union <| ofRanges <| Text.foldPairs.filterMap fun (code, target) =>
    if among folded target then some (single code) else Option.none

def digit : CharSet :=
  ofRanges Text.digitRanges

def blank : CharSet :=
  ofRanges Text.blankRanges

def wordChar : CharSet :=
  ofRanges Text.wordRanges

/-- The sets that patterns name in double brackets, such as `[[:alpha:]]`. -/
def named? (name : List Char) : Option CharSet :=
  match String.ofList name with
  | "alnum" => some (unions [range '0' '9', range 'A' 'Z', range 'a' 'z'])
  | "alpha" => some (unions [range 'A' 'Z', range 'a' 'z'])
  | "ascii" => some (range '\x00' '\x7F')
  | "blank" => some (unions [single '\t', single ' '])
  | "cntrl" => some (unions [range '\x00' '\x1F', single '\x7F'])
  | "digit" => some (range '0' '9')
  | "graph" => some (range '!' '~')
  | "lower" => some (range 'a' 'z')
  | "print" => some (range ' ' '~')
  | "punct" => some (unions [range '!' '/', range ':' '@', range '[' '\x60', range '\x7B' '~'])
  | "space" => some (unions [range '\t' '\r', single ' '])
  | "upper" => some (range 'A' 'Z')
  | "word" => some (unions [range '0' '9', range 'A' 'Z', single '_', range 'a' 'z'])
  | "xdigit" => some (unions [range '0' '9', range 'A' 'F', range 'a' 'f'])
  | _ => Option.none

end CharSet
end Gcode
