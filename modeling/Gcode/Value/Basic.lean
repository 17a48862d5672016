import Gcode.Number.Int64
import Gcode.Text.Blank

/-! Values of words: integers, real numbers and texts.
A value can be read from program text, written out, compared, and taken over into another
kind.
-/

namespace Gcode

open Number

inductive ValueKind where
  | integer
  | real
  | text
deriving DecidableEq

namespace ValueKind

def name : ValueKind → String
  | integer => "integer"
  | real => "real"
  | text => "text"

def isNumeric : ValueKind → Bool
  | text => false
  | _ => true

/-- The place of a kind among values of several kinds. -/
def rank : ValueKind → Nat
  | integer => 0
  | real => 1
  | text => 2

end ValueKind

inductive Value where
  | integer (n : Int64)
  | real (x : Binary64)
  | text (t : List Char)
deriving DecidableEq

namespace Value

def kind : Value → ValueKind
  | integer _ => .integer
  | real _ => .real
  | text _ => .text

def toText : Value → List Char
  | integer n => intText n.toInt
  | real x => x.toText
  | text t => t

def toInteger? : Value → Option Int64
  | integer n => some n
  | _ => none

/-- The value as a real number; an integer goes to the nearest one. -/
def toReal? : Value → Option Binary64
  | integer n => some (.ofInt n.toInt)
  | real x => some x
  | text _ => none

/-- The number, unless it is infinite or NaN. -/
def finiteReal? (x : Binary64) : Option Value :=
  if x.isFinite then some (real x) else none

/-- The value of a kind that a text denotes, blanks around it apart. -/
def read? (kind : ValueKind) (source : List Char) : Option Value :=
  let source := Text.trim source
  match kind with
  | .integer => (readInt64? source).map integer
  | .real => (Binary64.read? source).bind finiteReal?
  | .text => some (text source)

/-- A value taken over into a kind, when the kind has it. -/
def coerce? (kind : ValueKind) (value : Value) : Option Value :=
  match kind, value with
  | .integer, integer n => some (integer n)
  | .integer, real x => (x.toInt?.bind toInt64?).map integer
  | .integer, text t => read? .integer t
  | .real, integer n => some (real (.ofInt n.toInt))
  | .real, real x => finiteReal? x
  | .real, text t => read? .real t
  | .text, text t => read? .text t
  | .text, value => some (text value.toText)

/-- Equality of values of one kind; reals are equal as numbers. -/
def eq : Value → Value → Bool
  | integer m, integer n => m == n
  | real x, real y => x.eq y
  | text s, text t => s == t
  | _, _ => false

/-- The order of values: kinds by rank, numbers by size and texts by code points. Only NaN is
beside everything of its kind.
-/
def compare? : Value → Value → Option Ordering
  | integer m, integer n => some (compare m.toInt n.toInt)
  | real x, real y => x.compare? y
  | text s, text t => some (compare s t)
  | v, w => some (compare v.kind.rank w.kind.rank)

end Value
end Gcode
