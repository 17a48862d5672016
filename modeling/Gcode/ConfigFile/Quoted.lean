import Gcode.Text.Hex

/-! Strings of configuration files, in single or double quotes, on one line or on several. -/

namespace Gcode.ConfigFile

/-- Control characters other than the tab have no place in strings and comments. -/
def isPlain (c : Char) : Bool :=
  c == '\t' || 0x20 ≤ c.toNat && c.toNat != 0x7F

namespace Quoted

/-- Reads what follows a backslash. -/
def escape? : List Char → Option (Char × List Char)
  | 'b' :: rest => some ('\x08', rest)
  | 't' :: rest => some ('\t', rest)
  | 'n' :: rest => some ('\n', rest)
  | 'f' :: rest => some ('\x0C', rest)
  | 'r' :: rest => some ('\r', rest)
  | 'e' :: rest => some ('\x1B', rest)
  | '"' :: rest => some ('"', rest)
  | '\\' :: rest => some ('\\', rest)
  | 'x' :: rest => hex 2 rest
  | 'u' :: rest => hex 4 rest
  | 'U' :: rest => hex 8 rest
  | _ => none
where
  hex (width : Nat) (rest : List Char) : Option (Char × List Char) :=
    if width ≤ rest.length then (Text.hexChar? (rest.take width)).map (·, rest.drop width)
    else none

/-- Reads a string in double quotes after the first one. -/
def basic? (text : List Char) : Option (List Char × List Char) :=
  match text with
  | [] => none
  | '"' :: rest => some ([], rest)
  | '\\' :: rest =>
      match escape? rest with
      | none => none
      | some (c, after) =>
          if after.length ≤ rest.length then
            (basic? after).map fun (content, after) => (c :: content, after)
          else none
  | c :: rest =>
      if isPlain c then (basic? rest).map fun (content, after) => (c :: content, after) else none
termination_by text.length

/-- Reads a string in single quotes after the first one. -/
def literal? (text : List Char) : Option (List Char × List Char) :=
  match text.dropWhile fun c => isPlain c && c != '\'' with
  | '\'' :: rest => some (text.takeWhile fun c => isPlain c && c != '\'', rest)
  | _ => none

/-- A line end right after the opening quotes is no part of a string. -/
def dropLineEnd : List Char → List Char
  | '\n' :: rest => rest
  | '\r' :: '\n' :: rest => rest
  | text => text

/-- The text after a backslash at the end of a line: all blanks and line ends are skipped. -/
def continuation? (text : List Char) : Option (List Char) :=
  match text.dropWhile fun c => c == ' ' || c == '\t' with
  | '\n' :: rest => some (skip rest)
  | '\r' :: '\n' :: rest => some (skip rest)
  | _ => none
where
  skip (text : List Char) : List Char :=
    text.dropWhile fun c => c == ' ' || c == '\t' || c == '\n' || c == '\r'

/-- Reads a string in three double or single quotes after the first three; up to two more quotes
belong to the string. Only double quotes have escapes.
-/
def multiline? (quote : Char) (text : List Char) : Option (List Char × List Char) :=
  match text with
  | [] => none
  | '\r' :: '\n' :: rest =>
      (multiline? quote rest).map fun (content, after) => ('\r' :: '\n' :: content, after)
  | c :: rest =>
      if c = quote ∧ rest.take 2 = [quote, quote] then
        let more := ((rest.drop 2).take 2).takeWhile (· == quote)
        some (more, rest.drop (2 + more.length))
      else if c = '\\' ∧ quote = '"' then
        match continuation? rest, escape? rest with
        | some after, _ =>
            if after.length ≤ rest.length then multiline? quote after else none
        | none, some (c, after) =>
            if after.length ≤ rest.length then
              (multiline? quote after).map fun (content, after) => (c :: content, after)
            else none
        | none, none => none
      else if isPlain c ∨ c = '\n' then
        (multiline? quote rest).map fun (content, after) => (c :: content, after)
      else none
termination_by text.length

/-- Reads a string of any style. -/
def read? : List Char → Option (List Char × List Char)
  | '"' :: '"' :: '"' :: rest => multiline? '"' (dropLineEnd rest)
  | '\'' :: '\'' :: '\'' :: rest => multiline? '\'' (dropLineEnd rest)
  | '"' :: rest => basic? rest
  | '\'' :: rest => literal? rest
  | _ => none

end Quoted
end Gcode.ConfigFile
