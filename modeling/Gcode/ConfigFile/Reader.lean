import Gcode.ConfigFile.Node
import Gcode.ConfigFile.Quoted
import Gcode.ConfigFile.Scalar

/-! Reading configuration files in TOML 1.1. -/

namespace Gcode.ConfigFile

def skipBlanks (text : List Char) : List Char :=
  text.dropWhile fun c => c == ' ' || c == '\t'

/-- Skips blanks and a comment; nothing is returned for a comment with a control character. -/
def skipComment? (text : List Char) : Option (List Char) :=
  match skipBlanks text with
  | '#' :: comment =>
      match comment.dropWhile isPlain with
      | [] => some []
      | '\n' :: rest => some ('\n' :: rest)
      | '\r' :: '\n' :: rest => some ('\n' :: rest)
      | _ => none
  | '\r' :: '\n' :: rest => some ('\n' :: rest)
  | rest => some rest

/-- Skips blanks, comments and line ends. -/
def skipLayout? (text : List Char) : Option (List Char) :=
  match skipComment? text with
  | some ('\n' :: rest) => if rest.length < text.length then skipLayout? rest else none
  | rest => rest
termination_by text.length

/-- Skips to the start of the next line, where nothing but a comment may be in between. -/
def endLine? (text : List Char) : Option (List Char) :=
  match skipComment? text with
  | some [] => some []
  | some ('\n' :: rest) => some rest
  | _ => none

def isKeyChar (c : Char) : Bool :=
  c.isAlphanum || c == '-' || c == '_'

/-- Reads one part of a key. -/
def keyPart? : List Char → Option (String × List Char)
  | '"' :: rest => (Quoted.basic? rest).map fun (key, rest) => (String.ofList key, rest)
  | '\'' :: rest => (Quoted.literal? rest).map fun (key, rest) => (String.ofList key, rest)
  | text =>
      let key := text.takeWhile isKeyChar
      if key = [] then none else some (String.ofList key, text.dropWhile isKeyChar)

/-- Reads a key with its parts between dots: the parts before the last one, and the last one. -/
def key? (text : List Char) : Option ((List String × String) × List Char) := do
  let (part, rest) ← keyPart? (skipBlanks text)
  match skipBlanks rest with
  | '.' :: rest =>
      if rest.length < text.length then
        let ((path, last), rest) ← key? rest
        return ((part :: path, last), rest)
      else none
  | rest => return (([], part), rest)
termination_by text.length

/-- Reads a key and its value, given how to read a value. -/
def keyValue? (value? : List Char → Option (Node × List Char)) (text : List Char)
    : Option (((List String × String) × Node) × List Char) := do
  let (key, rest) ← key? text
  let '=' :: rest := rest | none
  let (node, rest) ← value? (skipBlanks rest)
  return ((key, node), rest)

/-- Reads the items of an array after its opening bracket. -/
def items? (value? : List Char → Option (Node × List Char)) (text : List Char)
    : Option (List Node × List Char) := do
  match ← skipLayout? text with
  | ']' :: rest => return ([], rest)
  | start =>
      let (node, rest) ← value? start
      match ← skipLayout? rest with
      | ',' :: rest =>
          if rest.length < text.length then
            let (nodes, rest) ← items? value? rest
            return (node :: nodes, rest)
          else none
      | ']' :: rest => return ([node], rest)
      | _ => none
termination_by text.length

/-- Reads the entries of a table after its opening brace. -/
def entries? (value? : List Char → Option (Node × List Char)) (entries : Entries)
    (text : List Char) : Option (Entries × List Char) := do
  match ← skipLayout? text with
  | '\x7D' :: rest => return (entries, rest)
  | start =>
      let (((path, key), node), rest) ← keyValue? value? start
      let entries ← entries.set? path key node .inline
      match ← skipLayout? rest with
      | ',' :: rest => if rest.length < text.length then entries? value? entries rest else none
      | '\x7D' :: rest => return (entries, rest)
      | _ => none
termination_by text.length

/-- Reads a value; arrays and tables in it nest at most `depth` deep. -/
def value? (depth : Nat) (text : List Char) : Option (Node × List Char) :=
  match text, depth with
  | '[' :: rest, depth + 1 =>
      (items? (value? depth) rest).map fun (nodes, rest) => (.array nodes, rest)
  | '\x7B' :: rest, depth + 1 =>
      (entries? (value? depth) [] rest).map fun (entries, rest) => (.table .inline entries, rest)
  | text, _ =>
      match text with
      | '"' :: _ => (Quoted.read? text).map fun (s, rest) => (.string (String.ofList s), rest)
      | '\'' :: _ => (Quoted.read? text).map fun (s, rest) => (.string (String.ofList s), rest)
      | _ =>
          let (scalar, rest) := Scalar.split text
          if Scalar.isValid scalar then some (.scalar, rest) else none

/-- How deep values may nest. -/
def maxDepth : Nat := 80

/-- The tables that have been read, and the path of the last header. -/
structure Content where
  root : Entries := []
  header : List String := []

namespace Content

/-- Opens the table of a header after its bracket or double bracket. -/
def header? (content : Content) (double : Bool) (text : List Char)
    : Option (Content × List Char) := do
  let ((path, key), rest) ← key? text
  let rest ← match double, rest with
    | false, ']' :: rest => some rest
    | true, ']' :: ']' :: rest => some rest
    | _, _ => none
  let openHere := if double then Entries.openNextTable? key else Entries.openTable? key
  let root ← content.root.changeAt .implied (fun _ entries => openHere entries) path .header
  return ({ root, header := path ++ [key] }, ← endLine? rest)

/-- Reads one line with a key into the table of the last header. -/
def keyLine? (content : Content) (text : List Char) : Option (Content × List Char) := do
  let (((path, key), node), rest) ← keyValue? (value? maxDepth) text
  let root ← content.root.changeAt .implied
    (fun kind entries => entries.set? path key node kind) content.header .header
  return ({ content with root }, ← endLine? rest)

/-- Reads the rest of a file. -/
def finish? (content : Content) (text : List Char) : Option Entries := do
  let start ← skipLayout? text
  let (content, rest) ← match start with
    | [] => return content.root
    | '[' :: '[' :: rest => content.header? true rest
    | '[' :: rest => content.header? false rest
    | start => content.keyLine? start
  if rest.length < text.length then content.finish? rest else none
termination_by text.length

end Content

/-- The entries of a configuration file. A byte order mark may come before them. -/
def read? (text : List Char) : Option Entries :=
  Content.finish? {} (match text with
    | '\uFEFF' :: text => text
    | text => text)

end Gcode.ConfigFile
