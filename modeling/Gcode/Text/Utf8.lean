/-! UTF-8 as ranges of bytes.
The characters of a range encode to sequences of bytes, and these are given by a few sequences of
byte ranges.
-/

namespace Gcode.Text

/-- The code points that encode to equally many bytes with the same mark on the first one. -/
structure Utf8Form where
  first : Nat
  last : Nat
  mark : Nat
  /-- The number of bytes after the first one. -/
  more : Nat

/-- The forms in order. The code points between the second form of three bytes and the first one
are no characters.
-/
def utf8Forms : List Utf8Form :=
  [⟨0x0, 0x7F, 0x00, 0⟩, ⟨0x80, 0x7FF, 0xC0, 1⟩, ⟨0x800, 0xD7FF, 0xE0, 2⟩,
    ⟨0xE000, 0xFFFF, 0xE0, 2⟩, ⟨0x10000, 0x10FFFF, 0xF0, 3⟩]

/-- The sequences of one byte with its mark and so many bytes after it, whose payload of six bits
a byte goes from `low` to `high`. A first byte whose later bytes are not all allowed stands
alone.
-/
def byteRanges (mark : Nat) : Nat → Nat → Nat → List (List (Nat × Nat))
  | 0, low, high => [[(mark + low, mark + high)]]
  | more + 1, low, high =>
      let unit := Nat.pow 64 (more + 1)
      let after (first last low high : Nat) : List (List (Nat × Nat)) :=
        (byteRanges 0x80 more low high).map ((mark + first, mark + last) :: ·)
      let first := low / unit
      let last := high / unit
      if first = last then after first first (low % unit) (high % unit)
      else
        let whole := if low % unit = 0 then first else first + 1
        let stop := if high % unit = unit - 1 then last + 1 else last
        (if whole = first then [] else after first first (low % unit) (unit - 1))
          ++ (if whole < stop then after whole (stop - 1) 0 (unit - 1) else [])
          ++ (if stop = last then after last last 0 (high % unit) else [])

/-- The sequences of byte ranges that the characters of the given ranges encode to. -/
def utf8Ranges (ranges : List (Nat × Nat)) : List (List (Nat × Nat)) :=
  ranges.flatMap fun (first, last) => utf8Forms.flatMap fun form =>
    let low := max first form.first
    let high := min last form.last
    if low ≤ high then byteRanges form.mark form.more low high else []

end Gcode.Text
