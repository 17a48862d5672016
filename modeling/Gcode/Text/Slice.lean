/-! Texts cut at offsets in bytes.
An offset counts the bytes of UTF-8. There is a cut only between characters and up to the end of
the text.
-/

namespace Gcode.Text

def byteLength : List Char → Nat
  | [] => 0
  | c :: text => c.utf8Size + byteLength text

/-- What comes before an offset and what comes after it. -/
def cutAt? : List Char → Nat → Option (List Char × List Char)
  | text, 0 => some ([], text)
  | [], _ + 1 => none
  | c :: text, offset + 1 =>
      if c.utf8Size ≤ offset + 1 then
        (cutAt? text (offset + 1 - c.utf8Size)).map fun (front, rest) => (c :: front, rest)
      else none

/-- The part of a text from one offset to another. -/
def slice? (text : List Char) (start stop : Nat) : Option (List Char) := do
  let (front, _) ← cutAt? text stop
  let (_, part) ← cutAt? front start
  return part

/-- The characters of a text with their offsets, from the offset of the first one on. -/
def indexed (offset : Nat) : List Char → List (Nat × Char)
  | [] => []
  | c :: text => (offset, c) :: indexed (offset + c.utf8Size) text

theorem byteLength_append (front rest : List Char)
    : byteLength (front ++ rest) = byteLength front + byteLength rest := by
  induction front with
  | nil => simp [byteLength]
  | cons c front ih => simp [byteLength, ih, Nat.add_assoc]

/-- The end of every first part of a text is a cut. -/
theorem cutAt?_byteLength (front rest : List Char)
    : cutAt? (front ++ rest) (byteLength front) = some (front, rest) := by
  induction front with
  | nil => simp [byteLength, cutAt?]
  | cons c front ih =>
      obtain ⟨size, hs⟩ := Nat.exists_eq_succ_of_ne_zero (Nat.ne_of_gt c.utf8Size_pos)
      have length : byteLength (c :: front) = size + byteLength front + 1 := by
        rw [byteLength, hs]
        omega
      have fits : c.utf8Size ≤ size + byteLength front + 1 := by omega
      have rest_length : size + byteLength front + 1 - c.utf8Size = byteLength front := by omega
      rw [List.cons_append, length, cutAt?, if_pos fits, rest_length, ih]
      rfl

/-- A part of a text is the slice between the offsets of its ends. -/
theorem slice?_byteLength (before part after : List Char)
    : slice? (before ++ part ++ after) (byteLength before) (byteLength before + byteLength part)
      = some part := by
  rw [slice?, ← byteLength_append, cutAt?_byteLength]
  simp [cutAt?_byteLength]

end Gcode.Text
