import Gcode.Pattern.CharSet

/-! The options of patterns: `(?ims)` turns them on and `(?-ims)` turns them off. -/

namespace Gcode.Pattern

structure Flags where
  anyCase : Bool := false
  multiLine : Bool := false
  dotAll : Bool := false

namespace Flags

def set? (flags : Flags) (value : Bool) : Char → Option Flags
  | 'i' => some { flags with anyCase := value }
  | 'm' => some { flags with multiLine := value }
  | 's' => some { flags with dotAll := value }
  | _ => none

/-- Reads options up to the colon or parenthesis after them; the Boolean says that it was a
colon. No option may be repeated, a minus turns off what follows it, and options without a group
may not be empty.
-/
def read? (flags : Flags) (seen : List Char) : List Char → Option (Flags × Bool × List Char)
  | [] => none
  | ')' :: rest =>
      if seen = [] ∨ seen.head? = some '-' then none else some (flags, false, rest)
  | ':' :: rest => if seen.head? = some '-' then none else some (flags, true, rest)
  | c :: rest =>
      if c ∈ seen then none
      else if c = '-' then read? flags (c :: seen) rest
      else (flags.set? ('-' ∉ seen) c).bind fun flags => read? flags (c :: seen) rest

/-- A set, with the same letters in other cases if these do not matter. -/
def fold (flags : Flags) (set : CharSet) : CharSet :=
  if flags.anyCase then set.anyCase else set

end Flags

end Gcode.Pattern
