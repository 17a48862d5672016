import Gcode.HashTable
import Gcode.Instruction.Conflict

/-! The check for conflicts in one pass with two hash tables.
One table finds instructions by their words and the other by their modal groups. An instruction is
put into both, and whatever it displaces there is in conflict with it.
-/

namespace Gcode

namespace Instruction

/-- How keys are hashed: words by what stands for their letters and values, groups by name. -/
structure Hashing where
  digest : Letter × Word.Digest → Nat
  group : String → Nat

/-- The check of instructions with the tables that the earlier ones have filled. -/
def verifyWith (hashing : Hashing) (words : HashTable Word Instruction)
    (groups : HashTable String Instruction) : List Instruction → Except Error Unit
  | [] => .ok ()
  | instruction :: rest =>
      match words.insert (hashing.digest ·.digest) Word.eq instruction.word instruction with
      | (some first, _) => .error (.sameCodeInBlock first.toText instruction.toText)
      | (none, words) =>
          match instruction.modalGroup with
          | none => verifyWith hashing words groups rest
          | some group =>
              match groups.insert hashing.group (· == ·) group instruction with
              | (some first, _) =>
                  .error (.sameModalGroupInBlock group first.toText instruction.toText)
              | (none, groups) => verifyWith hashing words groups rest

def verifyByTables (hashing : Hashing) (instructions : List Instruction) : Except Error Unit :=
  verifyWith hashing .empty .empty instructions

end Instruction
end Gcode
