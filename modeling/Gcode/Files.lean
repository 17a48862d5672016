/-! Files and directories as they are found when a program looks for them. -/

namespace Gcode

/-- Why nothing can be read. -/
inductive ReadFault where
  | notFound
  | notADirectory
  | isADirectory
  /-- What is there must not be read. -/
  | denied
  /-- The way there must not be taken, so that nothing seems to be there. -/
  | hidden
  | notText
deriving DecidableEq

def ReadFault.message : ReadFault → String
  | notFound => "No such file or directory (os error 2)"
  | notADirectory => "Not a directory (os error 20)"
  | isADirectory => "Is a directory (os error 21)"
  | denied => "Permission denied (os error 13)"
  | hidden => "Permission denied (os error 13)"
  | notText => "stream did not contain valid UTF-8"

/-- The text that bytes encode in UTF-8. -/
def readUtf8 (content : ByteArray) : Except ReadFault (List Char) :=
  match String.fromUTF8? content with
  | some text => .ok text.toList
  | none => .error .notText

/-- What a path leads to. -/
inductive PathTarget where
  | unreadable (fault : ReadFault)
  | file (content : ByteArray)
  /-- A directory with the names in it, in any order. -/
  | directory (names : List String)

/-- What every path leads to. -/
abbrev Files := String → PathTarget

namespace Files

def readText (files : Files) (path : String) : Except ReadFault (List Char) :=
  match files path with
  | .unreadable fault => .error fault
  | .file content => readUtf8 content
  | .directory _ => .error .isADirectory

/-- The path of a name in a directory. -/
def join (directory name : String) : String :=
  if directory.toList.getLast? = some '/' then directory ++ name else directory ++ "/" ++ name

/-- Whether a file name has an extension, which is what follows its last point; a point at the
start of a name makes no extension.
-/
def hasExtension (extension name : String) : Bool :=
  match name.toList.reverse.span (· ≠ '.') with
  | (found, '.' :: _ :: _) => found.reverse == extension.toList
  | _ => false

end Files
end Gcode
