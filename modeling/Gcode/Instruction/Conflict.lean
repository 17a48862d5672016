import Gcode.Instruction.Basic

/-! Conflicts between the instructions of a block.
No two may have the same word, and no two may belong to the same modal group.
-/

namespace Gcode.Instruction

/-- What is wrong with an instruction after the ones before it, newest first. The same word
counts before the same group.
-/
def conflict? (earlier : List Instruction) (instruction : Instruction) : Option Error :=
  match earlier.find? fun first => first.word.eq instruction.word with
  | some first => some (.sameCodeInBlock first.toText instruction.toText)
  | none =>
      instruction.modalGroup.bind fun group =>
        (earlier.find? fun first => first.modalGroup == some group).map fun first =>
          .sameModalGroupInBlock group first.toText instruction.toText

def verifyAfter (earlier : List Instruction) : List Instruction → Except Error Unit
  | [] => .ok ()
  | instruction :: rest =>
      match conflict? earlier instruction with
      | some error => .error error
      | none => verifyAfter (instruction :: earlier) rest

/-- Reports the first instruction that conflicts with an earlier one. -/
def verify (instructions : List Instruction) : Except Error Unit :=
  verifyAfter [] instructions

end Gcode.Instruction
