import Gcode.CommandLine.Outcome

/-! The formatter as a program: it looks up what a run needs, and writes what comes of the run. -/

namespace Gcode.CommandLine

def faultOf : IO.Error → ReadFault
  | .permissionDenied .. => .denied
  | _ => .notFound

/-- What a path leads to now. -/
def look (path : String) : IO PathTarget := do
  if path.isEmpty then return .unreadable .notFound
  let place := (← IO.currentDir) / path
  match ← place.metadata.toBaseIO with
  | .error (.permissionDenied ..) => return .unreadable .hidden
  | .error error => return .unreadable (faultOf error)
  | .ok metadata =>
      try
        if metadata.type == .dir then
          return .directory ((← place.readDir).toList.map (·.fileName))
        else return .file (← IO.FS.readBinFile place)
      catch error => return .unreadable (faultOf error)

/-- The files at given paths, and those in given directories. -/
def gather (paths directories : List String) : IO Files := do
  let mut found : List (String × PathTarget) := []
  for path in paths do
    found := (path, ← look path) :: found
  for directory in directories do
    let target ← look directory
    found := (directory, target) :: found
    if let .directory names := target then
      for path in Registry.dialectPaths directory names do
        found := (path, ← look path) :: found
  let entries := found
  return fun path => (entries.lookup path).getD (.unreadable .notFound)

/-- Everything that is left in a stream. -/
partial def readAll (stream : IO.FS.Stream) (before : ByteArray) : IO ByteArray := do
  let part ← stream.read 65536
  if part.isEmpty then return before
  readAll stream (before ++ part)

/-- The directory for configuration files that the environment names. -/
def configDirectory? : IO (Option String) := do
  match ← IO.getEnv "XDG_CONFIG_HOME" with
  | some directory =>
      if directory.startsWith "/" then return some directory
      else inHome
  | none => inHome
where
  inHome : IO (Option String) := do
    return ((← IO.getEnv "HOME").filter (!·.isEmpty)).map fun home => Files.join home ".config"

/-- What a request needs from its surroundings. -/
def surroundings (request : Request) : IO Surroundings := do
  let configDirectory ← configDirectory?
  let logSetting ← IO.getEnv "RUST_LOG"
  let standardInput ←
    if request.files.isEmpty then readAll (← IO.getStdin) .empty else pure .empty
  let known : Surroundings :=
    { files := fun _ => .unreadable .notFound, standardInput, configDirectory, logSetting }
  let files ← gather request.files ((dialectDirectories request known).map (·.1))
  return { known with files }

/-- The outcome of a command line here and now. -/
def outcome (arguments : List String) : IO Outcome := do
  match Command.ofArguments? arguments with
  | some (.format request) => return format request (← surroundings request)
  | _ => return run { files := fun _ => .unreadable .notFound, standardInput := .empty } arguments

end Gcode.CommandLine

open Gcode.CommandLine in
def main (arguments : List String) : IO UInt32 := do
  let outcome ← outcome arguments
  IO.print (String.ofList outcome.output)
  for message in outcome.log do
    IO.eprintln s!"[ERROR] {message}"
  if let some reason := outcome.failure then
    IO.eprintln s!"Error: {reason}"
  if (Command.ofArguments? arguments).isNone then
    IO.eprintln "error: the arguments are not understood; try --help"
  return outcome.exitCode.toUInt32
