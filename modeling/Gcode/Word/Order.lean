import Gcode.Word.Basic

/-! Comparing words.
Words are compared by letter and value alone, whatever their dialects and precisions.
-/

namespace Gcode.Word

/-- Words are equal when their letters and their values are. -/
def eq (left right : Word) : Bool :=
  left.letter == right.letter && left.value.eq right.value

/-- Words in the order of their letters and then of their values. -/
def compare (left right : Word) : Ordering :=
  (Ord.compare left.letter.char right.letter.char).then
    ((left.value.compare? right.value).getD .eq)

/-- What stands for a value where equal values must coincide: zero has no sign there. -/
inductive Digest where
  | integer (n : Int64)
  | real (bits : Nat)
  | text (t : List Char)
deriving DecidableEq

def digest (word : Word) : Letter × Digest :=
  (word.letter,
    match word.value with
    | .integer n => .integer n
    | .real (.finite _ 0 _) => .real 0
    | .real x => .real x.toBits
    | .text t => .text t)

/-- The words in order; equal words keep their order. -/
def sort (words : List Word) : List Word :=
  words.mergeSort fun left right => (compare left right).isLE

/-- The first of all words that are equal to each other. -/
def distinct (words : List Word) : List Word :=
  words.foldl (fun kept word => if kept.any (·.eq word) then kept else kept ++ [word]) []

/-- The value of each letter, in the order of the letters; the last word of a letter counts. -/
def toMap (words : List Word) (limit : Option (List Char)) : List (Letter × Value) :=
  let kept := words.filter fun word => limit.all (word.letter.char ∈ ·)
  Letter.all.filterMap fun letter =>
    (kept.reverse.find? (·.letter == letter)).map fun word => (letter, word.value)

end Gcode.Word
