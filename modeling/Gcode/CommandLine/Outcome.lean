import Gcode.CommandLine.Report
import Gcode.CommandLine.Request
import Gcode.Dialect.Registry

/-! What a run of the formatter writes.
A run first gathers the dialects, then reads all inputs, and only then writes anything, so that a
run that fails writes nothing.
-/

namespace Gcode.CommandLine

/-- What a run finds around it. -/
structure Surroundings where
  files : Files
  standardInput : ByteArray
  /-- The directory for the configuration files of the user. -/
  configDirectory : Option String := none
  /-- The setting of the log in the environment. -/
  logSetting : Option String := none

/-- What a run leaves behind. -/
structure Outcome where
  exitCode : Nat
  output : List Char := []
  /-- The error records that the log shows. -/
  log : List String := []
  /-- Why the run failed, if it did. -/
  failure : Option String := none

/-- A document to format, by its name. -/
structure Input where
  name : String
  content : List Char

/-- The directory with the dialect files of the user. -/
def userDirectory (surroundings : Surroundings) : Option String :=
  surroundings.configDirectory.map (Files.join · "gcode-block/dialects")

/-- The directories with dialect files, lowest priority first. -/
def dialectDirectories (request : Request) (surroundings : Surroundings)
    : List (String × DialectPriority) :=
  let user := (userDirectory surroundings).map (·, DialectPriority.userGlobal)
  let explicit := request.dialectDirectory.map (·, DialectPriority.explicit)
  user.toList ++ explicit.toList

/-- Loads the dialects of directories one after the other. The files that were skipped are told
also where a directory then cannot be read.
-/
def loadDirectories (files : Files) (registry : Registry)
    : List (String × DialectPriority) → List (String × LoadError) × Except LoadError Registry
  | [] => ([], .ok registry)
  | (directory, priority) :: rest =>
      match registry.loadDirectory files directory priority with
      | .error fault => ([], .error fault)
      | .ok loaded =>
          let (failures, result) := loadDirectories files loaded.registry rest
          (loaded.failures ++ failures, result)

/-- The name of the dialect to read with: the one that is asked for, or the built-in one. -/
def dialectName (request : Request) : String :=
  request.dialect.getD Dialect.linuxCnc.name

/-- What a run reads with. -/
structure Setup where
  registry : Registry
  settings : Settings

/-- Why there is nothing to read with. -/
inductive SetupFault where
  /-- A directory with dialect files cannot be read. -/
  | directory (fault : LoadError)
  /-- No dialect has the name that is asked for. -/
  | dialect (error : Error)

def SetupFault.summary : SetupFault → String
  | directory fault => fault.summary
  | dialect error => error.message

/-- Makes the dialect that a request names the default of a registry, and reads with it. -/
def configure (request : Request) (xyDecimals : Precision) (registry : Registry)
    : Except Error Setup := do
  let registry ← registry.setDefault (dialectName request)
  let dialect ← registry.default
  return { registry, settings := { dialect, xyDecimals, verify := request.verify } }

/-- Gathers the dialects and chooses the one that a request names. The files that were skipped are
told in any case.
-/
def setUp (request : Request) (surroundings : Surroundings) (xyDecimals : Precision)
    : List (String × LoadError) × Except SetupFault Setup :=
  let (skipped, loaded) :=
    loadDirectories surroundings.files .builtIn (dialectDirectories request surroundings)
  match loaded with
  | .error fault => (skipped, .error (.directory fault))
  | .ok registry => (skipped, (configure request xyDecimals registry).mapError .dialect)

/-- The input in a file. -/
def readInput (files : Files) (path : String) : Except String Input :=
  match files.readText path with
  | .ok content => .ok ⟨path, content⟩
  | .error _ => .error s!"Failed to read G-code file: {path}"

/-- The inputs of a request in order, or why one of them cannot be read. -/
def readInputs (request : Request) (surroundings : Surroundings) : Except String (List Input) :=
  if request.files.isEmpty then
    match readUtf8 surroundings.standardInput with
    | .ok content => .ok [⟨"<stdin>", content⟩]
    | .error _ => .error "Failed to read standard input"
  else request.files.mapM (readInput surroundings.files)

/-- The setting of the log: that of the environment, or else the level that a request names. -/
def logSetting (request : Request) (surroundings : Surroundings) : String :=
  surroundings.logSetting.getD (request.logLevel.getD "warn")

/-- Which records the log of a run shows. -/
def logFilter (request : Request) (surroundings : Surroundings) : LogFilter :=
  LogFilter.read (logSetting request surroundings).toList

/-- The outcome of formatting inputs: every diagnostic is told once, in the output or to the
log.
-/
def formatInputs (request : Request) (filter : LogFilter) (settings : Settings)
    (inputs : List Input) : Outcome :=
  let results := inputs.map fun input => (input.name, Document.format settings input.content)
  { exitCode := if results.all fun (_, _, diagnostics) => diagnostics.isEmpty then 0 else 1
    output := results.flatMap fun (name, text, diagnostics) =>
      text ++ if request.json then Diagnostic.jsonReport name diagnostics else []
    log :=
      if request.json then []
      else
        filter.messages <| results.flatMap fun (name, _, diagnostics) =>
          diagnostics.map (Diagnostic.record name) }

/-- The outcome of a run that fails. -/
def Outcome.failed (reason : String) : Outcome where
  exitCode := 1
  failure := some reason

/-- The outcome with what a run reads with, or without it. -/
def formatWith (request : Request) (surroundings : Surroundings)
    : Except SetupFault Setup → Outcome
  | .error fault => .failed fault.summary
  | .ok { settings, .. } =>
      match readInputs request surroundings with
      | .error reason => .failed reason
      | .ok inputs => formatInputs request (logFilter request surroundings) settings inputs

/-- The precision that a request asks for. -/
def precision (request : Request) : Except Error Precision :=
  Precision.ofInt ((request.xyDecimals.map (·.toInt)).getD Precision.standard.places)

/-- The outcome of a request. -/
def format (request : Request) (surroundings : Surroundings) : Outcome :=
  match precision request with
  | .error error => .failed error.message
  | .ok xyDecimals =>
      let (skipped, setup) := setUp request surroundings xyDecimals
      let outcome := formatWith request surroundings setup
      let records := skipped.map fun (path, fault) => fault.record path
      { outcome with log := (logFilter request surroundings).messages records ++ outcome.log }

def versionText : List Char :=
  "gcode-fmt 0.1.0\n".toList

def helpText : List Char :=
  (String.intercalate "\n" [
    "Parse G-code lines and print them in canonical form",
    "",
    "Usage: gcode-fmt [OPTIONS] [FILES]...",
    "",
    "Arguments:",
    "  [FILES]...  G-code files to read (standard input when none are given)",
    "",
    "Options:",
    "      --dialect <DIALECT>          G-code dialect to use (e.g., 'linuxcnc')",
    "      --dialect-dir <DIALECT_DIR>  Directory containing dialect TOML files",
    "      --xy-decimals <XY_DECIMALS>  Decimal places used for X and Y values [default: 3]",
    "      --no-verify                  Do not reject blocks with repeated codes or modal groups",
    "      --json                       Report diagnostics as JSON on standard output",
    "      --log-level <LOG_LEVEL>      Log level (trace, debug, info, warn, error)"
      ++ " [default: warn]",
    "  -h, --help                       Print help",
    "  -V, --version                    Print version",
    ""]).toList

/-- The outcome of a command line. One that cannot be understood has an exit code of its own. -/
def run (surroundings : Surroundings) (arguments : List String) : Outcome :=
  match Command.ofArguments? arguments with
  | none => { exitCode := 2 }
  | some .showVersion => { exitCode := 0, output := versionText }
  | some .showHelp => { exitCode := 0, output := helpText }
  | some (.format request) => format request surroundings

end Gcode.CommandLine
