import Gcode.Pattern.Basic
import Gcode.Text.Blank

/-! Which error records the log shows.
The setting of the log is a list of directives between commas. A directive is a level for all
records, or a name, with or without a level, for the records of the parts of the program whose names
start with it. A pattern after a slash shows only the records that it matches.
-/

namespace Gcode.CommandLine

/-- What is wrong, as one part of the program tells it. -/
structure LogRecord where
  part : String
  message : String
deriving DecidableEq

/-- A level for the records of parts of the program. -/
structure LogDirective where
  /-- What the names of the parts start with; without it, all parts are meant. -/
  name : Option (List Char)
  /-- Whether errors are shown at this level. -/
  shows : Bool

structure LogFilter where
  directives : List LogDirective
  pattern : Option Pattern := none

/-- Whether errors are shown at a level, whose name may be in any case. -/
def showsErrors? (level : List Char) : Option Bool :=
  match String.ofList (level.map Char.toLower) with
  | "off" => some false
  | "error" => some true
  | "warn" => some true
  | "info" => some true
  | "debug" => some true
  | "trace" => some true
  | _ => none

/-- The parts of a text between separators. -/
def splitAt (separator : Char) : List Char → List (List Char)
  | [] => [[]]
  | c :: text =>
      if c = separator then [] :: splitAt separator text
      else
        match splitAt separator text with
        | [] => [[c]]
        | part :: parts => (c :: part) :: parts

namespace LogDirective

/-- A name without a level shows everything. Directives that are malformed do not count. -/
def read? (text : List Char) : Option LogDirective :=
  match splitAt '=' (Text.trim text) with
  | [part] =>
      if part.isEmpty then none
      else
        match showsErrors? part with
        | some shows => some ⟨none, shows⟩
        | none => some ⟨some part, true⟩
  | [name, level] =>
      if (Text.trim level).isEmpty then some ⟨some name, true⟩
      else (showsErrors? (Text.trim level)).map (⟨some name, ·⟩)
  | _ => none

/-- Adds a directive, in the place of one with the same name if there is one. -/
def addTo (directives : List LogDirective) (new : LogDirective) : List LogDirective :=
  if directives.any (·.name == new.name) then
    directives.map fun old => if old.name == new.name then new else old
  else directives ++ [new]

def fits (directive : LogDirective) (part : String) : Bool :=
  directive.name.all (·.isPrefixOf part.toList)

/-- How much of a name a directive gives. -/
def length (directive : LogDirective) : Nat :=
  (directive.name.getD []).length

/-- The directive that decides about a part of the program: of those that fit one with the longest
name, and of these the last.
-/
def deciding? (part : String) : List LogDirective → Option LogDirective
  | [] => none
  | directive :: rest =>
      let later := deciding? part rest
      if directive.fits part && later.all (·.length < directive.length) then some directive
      else later

end LogDirective

namespace LogFilter

/-- Reads the setting of the log. What is wrong in it does not count, and there is no pattern when
the text after the slash cannot be read as one.
-/
def read (setting : List Char) : LogFilter :=
  let directives (text : List Char) :=
    ((splitAt ',' text).filterMap LogDirective.read?).foldl LogDirective.addTo []
  match splitAt '/' setting with
  | [levels] => ⟨directives levels, none⟩
  | [levels, source] => ⟨directives levels, Pattern.read? (String.ofList source)⟩
  | _ => ⟨[], none⟩

/-- Whether the directives let a record through. Without any directive errors are let through. -/
def admits (filter : LogFilter) (record : LogRecord) : Bool :=
  filter.directives.isEmpty
    || (LogDirective.deciding? record.part filter.directives).any (·.shows)

/-- Whether a record is shown. -/
def shows (filter : LogFilter) (record : LogRecord) : Bool :=
  filter.admits record && filter.pattern.all (·.occursIn record.message.toList)

/-- What the log shows of records. -/
def messages (filter : LogFilter) (records : List LogRecord) : List String :=
  (records.filter filter.shows).map (·.message)

end LogFilter
end Gcode.CommandLine
