import Gcode.Pattern.Expr

/-! Programs that read a text.
Each expression has its code, a list of instructions that is entered at its first instruction and
left by its end.
-/

namespace Gcode.Pattern

inductive Instruction where
  /-- Takes a character of the set. -/
  | take (set : CharSet)
  /-- Goes on only where the anchor holds. -/
  | check (anchor : Anchor)
  /-- Goes on that many instructions away. -/
  | jump (distance : Int)
  /-- Goes on both ways; the first one is preferred. -/
  | fork (first second : Int)
deriving DecidableEq

namespace Instruction

/-- A fork between the next instruction and another one: greedy code goes on with the next one. -/
def tryNext (greedy : Bool) (other : Int) : Instruction :=
  if greedy then fork 1 other else fork other 1

/-- A fork at the end of a loop: greedy code goes back to its start. -/
def tryAgain (greedy : Bool) (length : Nat) : Instruction :=
  if greedy then fork (-length) 1 else fork 1 (-length)

end Instruction

namespace Code

open Instruction

/-- Code that may be left out. -/
def optional (greedy : Bool) (code : List Instruction) : List Instruction :=
  tryNext greedy (code.length + 1) :: code

/-- Code that is run at least once. -/
def atLeastOnce (greedy : Bool) (code : List Instruction) : List Instruction :=
  code ++ [tryAgain greedy code.length]

/-- Code that is run any number of times and takes characters each time. -/
def loop (greedy : Bool) (code : List Instruction) : List Instruction :=
  tryNext greedy (code.length + 2) :: code ++ [jump (-(code.length + 1))]

def times (count : Nat) (code : List Instruction) : List Instruction :=
  (List.replicate count code).flatten

/-- Code that is run at most `count` times: before each time it can stop. -/
def upTo (greedy : Bool) (count : Nat) (code : List Instruction) : List Instruction :=
  (List.range count).flatMap fun done =>
    tryNext greedy ((count - done) * (code.length + 1) : Nat) :: code

end Code

namespace Expr

/-- The code of an expression. A loop whose body can match the empty text is tried once before it
can be repeated, so that what its body prefers comes first.
-/
def code : Expr → List Instruction
  | empty => []
  | literal chars => chars.map fun c => .take (.single c)
  | set s => [.take s]
  | anchor a => [.check a]
  | capture _ body => body.code
  | seq first second => first.code ++ second.code
  | alt first second =>
      .fork 1 (first.code.length + 2)
        :: first.code ++ .jump (second.code.length + 1) :: second.code
  | rep body least most greedy =>
      match least, most with
      | 0, none =>
          if body.shortest?.any (0 < ·) then Code.loop greedy body.code
          else Code.optional greedy (Code.atLeastOnce greedy body.code)
      | least + 1, none => Code.times least body.code ++ Code.atLeastOnce greedy body.code
      | least, some most =>
          Code.times least body.code ++ Code.upTo greedy (most - least) body.code

end Expr

/-- The instructions of a pattern. The pattern has matched when their end is reached. -/
abbrev Program := Array Instruction

def Expr.program (e : Expr) : Program :=
  e.code.toArray

end Gcode.Pattern
