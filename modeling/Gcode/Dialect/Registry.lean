import Gcode.Dialect.File
import Gcode.Dialect.LinuxCnc
import Gcode.Files

/-! A registry of dialects by name.
Of two dialects with one name the one of higher priority is kept, and of equal priority the later
one. One of the names is the default.
-/

namespace Gcode

/-- Where a dialect came from, lowest priority first. -/
inductive DialectPriority where
  | builtIn
  | userGlobal
  | explicit
deriving DecidableEq

def DialectPriority.rank : DialectPriority → Nat
  | builtIn => 0
  | userGlobal => 1
  | explicit => 2

structure RegisteredDialect where
  dialect : Dialect
  priority : DialectPriority
  /-- The path of the file that defines the dialect, if it was loaded from one. -/
  source : Option String := none

structure Registry where
  registered : List RegisteredDialect := []
  /-- No dialect has the name of another. -/
  distinct : registered.Pairwise (·.dialect.name ≠ ·.dialect.name) := by exact .nil
  defaultName : String := Dialect.linuxCnc.name

/-- Why a dialect could not be loaded. -/
inductive LoadError where
  /-- A file that is no dialect file, by its path if it has one. -/
  | malformedFile (path : Option String)
  /-- A dialect file that defines no dialect. -/
  | noDialect (error : Error)
  /-- A file that is no text. -/
  | unreadableFile (path : String) (fault : ReadFault)
  | unreadableDirectory (path : String) (fault : ReadFault)
  /-- One of the first two faults, in the file with that path. -/
  | invalidFile (path : String) (fault : LoadError)

namespace LoadError

/-- What was being done, from the outermost action inwards. -/
def context : LoadError → List String
  | malformedFile none => ["Failed to parse dialect TOML"]
  | malformedFile (some path) => [s!"Failed to parse dialect TOML: {path}"]
  | noDialect _ => []
  | unreadableFile path _ => [s!"Failed to read dialect file: {path}"]
  | unreadableDirectory path _ => [s!"Failed to read dialect directory: {path}"]
  | invalidFile path fault => s!"Invalid dialect file: {path}" :: fault.context

/-- What went wrong. -/
def cause : LoadError → String
  | malformedFile _ => DialectFault.malformedFile.message
  | noDialect error => error.message
  | unreadableFile _ fault => fault.message
  | unreadableDirectory _ fault => fault.message
  | invalidFile _ fault => fault.cause

/-- All that is to say, in one line. -/
def message (error : LoadError) : String :=
  ": ".intercalate (error.context ++ [error.cause])

/-- What failed, seen from outside. -/
def summary (error : LoadError) : String :=
  error.context.headD error.cause

end LoadError

namespace Registry

/-- The registry without dialects. -/
def empty : Registry := {}

def get? (registry : Registry) (name : String) : Option RegisteredDialect :=
  registry.registered.find? (·.dialect.name == name)

def resolve (registry : Registry) (name : String) : Except Error Dialect :=
  match registry.get? name with
  | some found => .ok found.dialect
  | none => .error (.unknownDialect name)

/-- Stores a dialect under its name, whatever was there. -/
def store (registry : Registry) (new : RegisteredDialect) : Registry :=
  { registry with
    registered := new :: registry.registered.filter (new.dialect.name != ·.dialect.name)
    distinct := List.pairwise_cons.2 ⟨by simp, registry.distinct.filter _⟩ }

/-- Whether a dialect is to be stored: nothing of higher priority has its name. -/
def admits (registry : Registry) (new : RegisteredDialect) : Bool :=
  (registry.get? new.dialect.name).all fun old => decide (old.priority.rank ≤ new.priority.rank)

/-- Stores a dialect if it is admitted. -/
def insert (registry : Registry) (new : RegisteredDialect) : Registry :=
  if registry.admits new then registry.store new else registry

/-- The registry of the dialects that are built in. -/
def builtIn : Registry :=
  Registry.insert {} { dialect := Dialect.linuxCnc, priority := .builtIn }

/-- Makes a name the default; there has to be a dialect with it. -/
def setDefault (registry : Registry) (name : String) : Except Error Registry := do
  let _ ← registry.resolve name
  return { registry with defaultName := name }

/-- The dialect with the default name. -/
def default (registry : Registry) : Except Error Dialect :=
  registry.resolve registry.defaultName

/-- The names of all dialects, in order. -/
def names (registry : Registry) : List String :=
  (registry.registered.map (·.dialect.name)).mergeSort

/-- The dialect that the text of a file defines, which may start from a registered one. -/
def read (registry : Registry) (text : List Char) (path : Option String)
    : Except LoadError Dialect :=
  match DialectFile.read? text with
  | none => .error (.malformedFile path)
  | some file => (file.inherits.mapM registry.resolve >>= file.toDialect).mapError .noDialect

/-- The dialect in a file. -/
def readFile (registry : Registry) (files : Files) (path : String) : Except LoadError Dialect :=
  match files.readText path with
  | .error fault => .error (.unreadableFile path fault)
  | .ok text => (registry.read text (some path)).mapError (.invalidFile path)

/-- The registration that a file asks for. -/
def registrationOf (registry : Registry) (files : Files) (priority : DialectPriority)
    (path : String) : Except LoadError RegisteredDialect := do
  let dialect ← registry.readFile files path
  return { dialect, priority, source := some path }

/-- What came of loading the files of a directory. -/
structure Loaded where
  registry : Registry
  /-- How many dialects were stored. -/
  count : Nat := 0
  /-- The files that were skipped, with the reason. -/
  failures : List (String × LoadError) := []

/-- Loads one file after others. A file that cannot be loaded changes nothing. -/
def loadNext (files : Files) (priority : DialectPriority) (loaded : Loaded) (path : String)
    : Loaded :=
  match loaded.registry.registrationOf files priority path with
  | .error fault => { loaded with failures := loaded.failures ++ [(path, fault)] }
  | .ok new =>
      { loaded with
        registry := loaded.registry.insert new
        count := loaded.count + if loaded.registry.admits new then 1 else 0 }

/-- The paths of the dialect files among the names of a directory, in order. -/
def dialectPaths (directory : String) (names : List String) : List String :=
  ((names.filter (Files.hasExtension "toml")).mergeSort).map (Files.join directory)

/-- Loads all dialect files of a directory, in the order of their names, so that a file can start
from a dialect of one before it. A directory that is not there, or does not seem to be, has no
files.
-/
def loadDirectory (registry : Registry) (files : Files) (directory : String)
    (priority : DialectPriority) : Except LoadError Loaded :=
  match files directory with
  | .unreadable .denied => .error (.unreadableDirectory directory .denied)
  | .unreadable _ => .ok { registry }
  | .file _ => .error (.unreadableDirectory directory .notADirectory)
  | .directory names =>
      .ok ((dialectPaths directory names).foldl (loadNext files priority) { registry })

end Registry
end Gcode
