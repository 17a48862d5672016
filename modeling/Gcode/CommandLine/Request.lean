import Gcode.Number.Int64

/-! The command line: which files to format and how.
Arguments are read from left to right. Every option and every flag may be given once.
-/

namespace Gcode.CommandLine

open Number

structure Request where
  /-- The files to read; without any, standard input is read. -/
  files : List String := []
  dialect : Option String := none
  dialectDirectory : Option String := none
  xyDecimals : Option Int64 := none
  verify : Bool := true
  json : Bool := false
  logLevel : Option String := none

/-- What is to be done. -/
inductive Command where
  | format (request : Request)
  | showVersion
  | showHelp

/-- One argument by itself. -/
inductive Argument where
  /-- After this, all arguments are files. -/
  | endOfOptions
  /-- An option or a flag, with the value after the equals sign if there is one. -/
  | named (name : String) (value : Option String)
  /-- One-letter flags. -/
  | letters (letters : List Char)
  | file (path : String)

namespace Argument

def ofString (argument : String) : Argument :=
  match argument.toList with
  | ['-', '-'] => endOfOptions
  | '-' :: '-' :: text =>
      match text.span (· ≠ '=') with
      | (name, '=' :: value) => named (String.ofList name) (some (String.ofList value))
      | (name, _) => named (String.ofList name) none
  | '-' :: c :: text => letters (c :: text)
  | _ => file argument

end Argument

namespace Request

/-- Files have names. -/
def addFile? (request : Request) (path : String) : Option Request :=
  if path.isEmpty then none else some { request with files := request.files ++ [path] }

def addFiles? (request : Request) (paths : List String) : Option Request :=
  paths.foldlM addFile? request

/-- Raises a flag. -/
def raise? (request : Request) (name : String) : Option Request :=
  match name with
  | "no-verify" => if request.verify then some { request with verify := false } else none
  | "json" => if request.json then none else some { request with json := true }
  | _ => none

/-- The value of an option that is to have one. -/
def once {α : Type} (current : Option α) (value : α) : Option (Option α) :=
  if current.isSome then none else some (some value)

def set? (request : Request) (name value : String) : Option Request :=
  match name with
  | "dialect" => (once request.dialect value).map fun dialect => { request with dialect }
  | "dialect-dir" =>
      if value.isEmpty then none
      else
        (once request.dialectDirectory value).map fun dialectDirectory =>
          { request with dialectDirectory }
  | "xy-decimals" =>
      (readInt64? value.toList).bind fun n =>
        (once request.xyDecimals n).map fun xyDecimals => { request with xyDecimals }
  | "log-level" => (once request.logLevel value).map fun logLevel => { request with logLevel }
  | _ => none

/-- Whether an argument can be the value of the option before it. Values that start with a hyphen
cannot, except that a number may be negative.
-/
def isValueOf (name argument : String) : Bool :=
  match Argument.ofString argument with
  | .file _ => true
  | .letters digits => name == "xy-decimals" && digits.all Char.isDigit
  | _ => false

end Request

/-- Reads the arguments after those that made up a request. -/
def readAfter (request : Request) (arguments : List String) : Option Command :=
  match arguments with
  | [] => some (.format request)
  | argument :: rest =>
      match Argument.ofString argument with
      | .endOfOptions => (request.addFiles? rest).map .format
      | .file path => (request.addFile? path).bind (readAfter · rest)
      | .letters ('V' :: _) => some .showVersion
      | .letters ('h' :: _) => some .showHelp
      | .letters _ => none
      | .named "version" none => some .showVersion
      | .named "help" none => some .showHelp
      | .named name (some value) => (request.set? name value).bind (readAfter · rest)
      | .named name none =>
          match request.raise? name, rest with
          | some request, rest => readAfter request rest
          | none, value :: rest =>
              if Request.isValueOf name value then
                (request.set? name value).bind (readAfter · rest)
              else none
          | none, [] => none

/-- What a command line asks for, if it can be understood. -/
def Command.ofArguments? (arguments : List String) : Option Command :=
  readAfter {} arguments

end Gcode.CommandLine
