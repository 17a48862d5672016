import Gcode.Text.Ranges

/-! Blank characters, and what line text is once its blanks are put in order.
Blank means the Unicode property White_Space, so a no-break space is blank and a zero-width
space is not.
-/

namespace Gcode.Text

/-- The ranges of the property White_Space. -/
def blankRanges : List (Nat × Nat) :=
  [(0x09, 0x0D), (0x20, 0x20), (0x85, 0x85), (0xA0, 0xA0), (0x1680, 0x1680), (0x2000, 0x200A),
    (0x2028, 0x2029), (0x202F, 0x202F), (0x205F, 0x205F), (0x3000, 0x3000)]

def isBlank (c : Char) : Bool :=
  inRanges blankRanges c

def trimStart (text : List Char) : List Char :=
  text.dropWhile isBlank

def trimEnd (text : List Char) : List Char :=
  (text.reverse.dropWhile isBlank).reverse

/-- The text without the blanks at its two ends. -/
def trim (text : List Char) : List Char :=
  trimEnd (trimStart text)

/-- The maximal runs of characters that are not blank, in order. -/
def fields : List Char → List (List Char)
  | [] => []
  | c :: text =>
      if isBlank c then fields text
      else
        match text, fields text with
        | next :: _, field :: rest =>
            if isBlank next then [c] :: field :: rest else (c :: field) :: rest
        | _, rest => [c] :: rest

/-- Runs of blanks shrink to single spaces, and none stay at the ends. -/
def normalize (text : List Char) : List Char :=
  [' '].intercalate (fields text)

end Gcode.Text
