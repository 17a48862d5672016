import Gcode.CommandLine.Outcome
import Gcode.Proofs.Dialect.Loading

/-! What a run reads with.
The dialect files of the user come before those of the directory that a request names, so that of
all dialects with a name the last one of that directory is taken, else the last one of the user,
else the one that is built in.
-/

namespace Gcode.CommandLine

variable {request : Request} {surroundings other : Surroundings} {xyDecimals : Precision}
  {files : Files} {registry : Registry} {directories : List (String × DialectPriority)}

-----------------------------------------------------------------------------------------
-- Directories one after the other
-----------------------------------------------------------------------------------------

/-- The registry after directories. -/
def afterDirectories (files : Files) (registry : Registry)
    (directories : List (String × DialectPriority)) : Registry :=
  directories.foldl
    (fun registry entry => registry.afterFiles files entry.2 (Registry.pathsOf files entry.1))
    registry

/-- All directories are loaded unless one of them cannot be listed. -/
theorem loadDirectories_cases (files : Files) (registry : Registry)
    (directories : List (String × DialectPriority))
    : ((∃ entry ∈ directories, (files entry.1).Unlistable)
        ∧ ∃ fault, (loadDirectories files registry directories).2 = .error fault)
      ∨ ((∀ entry ∈ directories, ¬ (files entry.1).Unlistable)
        ∧ (loadDirectories files registry directories).2
          = .ok (afterDirectories files registry directories)) := by
  induction directories generalizing registry with
  | nil => exact .inr ⟨by simp, rfl⟩
  | cons entry rest ih =>
      obtain ⟨directory, priority⟩ := entry
      rw [loadDirectories, List.forall_mem_cons, List.exists_mem_cons_iff]
      rcases registry.loadDirectory_cases files directory priority with
        ⟨closed, fault, failed⟩ | ⟨listable, loaded, done, loads⟩
      · rw [failed]
        exact .inl ⟨.inl closed, fault, rfl⟩
      · simp only [done]
        rw [afterDirectories, List.foldl_cons, ← loads.held]
        rcases ih loaded.registry with ⟨closed, failed⟩ | ⟨rest, done⟩
        · exact .inl ⟨.inr closed, failed⟩
        · exact .inr ⟨⟨listable, rest⟩, done⟩

theorem loadDirectories_congr {files' : Files}
    (same : ∀ entry ∈ directories, files.SameDialectFiles files' entry.1)
    : loadDirectories files' registry directories = loadDirectories files registry directories := by
  induction directories generalizing registry with
  | nil => rfl
  | cons entry rest ih =>
      obtain ⟨first, same⟩ := List.forall_mem_cons.1 same
      rw [loadDirectories, loadDirectories, Registry.loadDirectory_congr first]
      cases registry.loadDirectory files entry.1 entry.2 with
      | error fault => rfl
      | ok loaded =>
          simp only
          rw [ih same]

-----------------------------------------------------------------------------------------
-- The dialects of a run
-----------------------------------------------------------------------------------------

/-- The dialects in the files of a directory, if there is to be one. -/
def dialectsIn (files : Files) (priority : DialectPriority) (registry : Registry)
    : Option String → List RegisteredDialect
  | none => []
  | some directory => registry.offersOfFiles files priority (Registry.pathsOf files directory)

/-- The dialects in the files of the user, which are in a directory of their own below the one for
configuration files.
-/
def userDialects (surroundings : Surroundings) : List RegisteredDialect :=
  dialectsIn surroundings.files .userGlobal .builtIn
    (surroundings.configDirectory.map (Files.join · "gcode-block/dialects"))

/-- The dialects in the files of the directory that a request names, which may start from those of
the user.
-/
def explicitDialects (request : Request) (surroundings : Surroundings) : List RegisteredDialect :=
  dialectsIn surroundings.files .explicit
    ((userDialects surroundings).foldl Registry.insert .builtIn) request.dialectDirectory

/-- The registry of all dialects of a run. -/
def gathered (request : Request) (surroundings : Surroundings) : Registry :=
  (userDialects surroundings ++ explicitDialects request surroundings).foldl Registry.insert
    .builtIn

/-- The dialect with a name: the last one of the directory that a request names, else the last one
of the user, else the one that is built in.
-/
def chosen (request : Request) (surroundings : Surroundings) (name : String)
    : Option RegisteredDialect :=
  (Registry.lastNamed name (explicitDialects request surroundings)).or <|
    (Registry.lastNamed name (userDialects surroundings)).or <|
      if Dialect.linuxCnc.name = name then
        some { dialect := Dialect.linuxCnc, priority := .builtIn }
      else none

/-- The directory of the user comes before the one that a request names. -/
theorem dialectDirectories_eq (request : Request) (surroundings : Surroundings)
    : dialectDirectories request surroundings
      = (surroundings.configDirectory.map fun config =>
            (Files.join config "gcode-block/dialects", DialectPriority.userGlobal)).toList
        ++ (request.dialectDirectory.map fun directory =>
            (directory, DialectPriority.explicit)).toList := by
  rw [dialectDirectories, userDirectory, Option.map_map]
  rfl

theorem afterDirectories_dialectDirectories (request : Request) (surroundings : Surroundings)
    : afterDirectories surroundings.files .builtIn (dialectDirectories request surroundings)
      = gathered request surroundings := by
  rw [gathered, List.foldl_append, explicitDialects, userDialects, dialectDirectories_eq]
  cases surroundings.configDirectory <;> cases request.dialectDirectory <;> rfl

theorem priority_of_mem_dialectsIn {priority : DialectPriority} {directory : Option String}
    {offer : RegisteredDialect} (member : offer ∈ dialectsIn files priority registry directory)
    : offer.priority = priority := by
  cases directory with
  | none => contradiction
  | some directory => exact (Registry.declared_of_mem_offersOfFiles member).1

/-- The priorities of what is offered only rise. -/
theorem rising_offers (request : Request) (surroundings : Surroundings)
    : (Registry.Start.builtIn.offers
        ++ (userDialects surroundings ++ explicitDialects request surroundings)).Pairwise
          (·.priority.rank ≤ ·.priority.rank) := by
  have constant {offered : List RegisteredDialect} {priority : DialectPriority}
      (all : ∀ offer ∈ offered, offer.priority = priority)
      : offered.Pairwise (·.priority.rank ≤ ·.priority.rank) :=
    List.pairwise_of_forall_mem_list fun first member second member' => by
      rw [all first member, all second member']
  have user : ∀ offer ∈ userDialects surroundings, offer.priority = .userGlobal :=
    fun offer => priority_of_mem_dialectsIn
  have explicit : ∀ offer ∈ explicitDialects request surroundings, offer.priority = .explicit :=
    fun offer => priority_of_mem_dialectsIn
  rw [Registry.Start.offers, List.singleton_append, List.pairwise_cons, List.pairwise_append]
  refine ⟨fun offer _ => Nat.zero_le _, constant user, constant explicit, ?_⟩
  intro first member second member'
  rw [user first member, explicit second member']
  decide

/-- Under each name there is what is chosen for it. -/
theorem get?_gathered (request : Request) (surroundings : Surroundings) (name : String)
    : (gathered request surroundings).get? name = chosen request surroundings name := by
  have reflects := Registry.Start.builtIn.reflects.foldl
    (userDialects surroundings ++ explicitDialects request surroundings)
  have last : (gathered request surroundings).get? name = Registry.lastNamed name _ :=
    reflects.get?_eq_lastNamed (rising_offers request surroundings)
  rw [last, Registry.lastNamed_append, Registry.lastNamed_append, Registry.Start.offers,
    Registry.lastNamed_singleton, Option.or_assoc, chosen]

/-- A run reads with the dialect that a registry holds under the name that is asked for. -/
theorem configure_eq (request : Request) (xyDecimals : Precision) (registry : Registry)
    : configure request xyDecimals registry
      = match registry.get? (dialectName request) with
        | none => .error (.unknownDialect (dialectName request))
        | some found =>
            .ok {
              registry := { registry with defaultName := dialectName request }
              settings := { dialect := found.dialect, xyDecimals, verify := request.verify } } := by
  cases found : registry.get? (dialectName request) with
  | none =>
      simp only [configure, Registry.setDefault, Registry.resolve, found]
      rfl
  | some held =>
      have kept
          : ({ registry with defaultName := dialectName request } : Registry).get?
              (dialectName request) = some held := found
      simp only [configure, Registry.setDefault, Registry.resolve, found, Registry.default, bind,
        Except.bind, pure, Except.pure, kept]

-----------------------------------------------------------------------------------------
-- The files decide
-----------------------------------------------------------------------------------------

/-- A run finds the same dialect files in other surroundings, listed in any order. -/
structure SameDialects (request : Request) (first second : Surroundings) : Prop where
  directories : dialectDirectories request second = dialectDirectories request first
  files
    : ∀ entry ∈ dialectDirectories request first,
        first.files.SameDialectFiles second.files entry.1

theorem setUp_congr (same : SameDialects request surroundings other)
    : setUp request other xyDecimals = setUp request surroundings xyDecimals := by
  rw [setUp, setUp, same.directories, loadDirectories_congr same.files]

/-- What a run reads with, or that there is nothing to read with. -/
theorem setUp_cases (request : Request) (surroundings : Surroundings) (xyDecimals : Precision)
    : ((∃ entry ∈ dialectDirectories request surroundings,
          (surroundings.files entry.1).Unlistable)
        ∧ ∃ fault, (setUp request surroundings xyDecimals).2 = .error (.directory fault))
      ∨ ((∀ entry ∈ dialectDirectories request surroundings,
          ¬ (surroundings.files entry.1).Unlistable)
        ∧ (setUp request surroundings xyDecimals).2
          = match chosen request surroundings (dialectName request) with
            | none => .error (.dialect (.unknownDialect (dialectName request)))
            | some found =>
                .ok {
                  registry :=
                    { gathered request surroundings with defaultName := dialectName request }
                  settings :=
                    { dialect := found.dialect, xyDecimals, verify := request.verify } }) := by
  rw [setUp]
  rcases loadDirectories_cases surroundings.files .builtIn
      (dialectDirectories request surroundings) with ⟨closed, fault, failed⟩ | ⟨listable, done⟩
  · simp only [failed]
    exact .inl ⟨closed, fault, rfl⟩
  · simp only [done]
    refine .inr ⟨listable, ?_⟩
    rw [afterDirectories_dialectDirectories, configure_eq, get?_gathered]
    cases chosen request surroundings (dialectName request) <;> rfl

/-- What a run reads with depends on the dialect files only, not on the order in which they are
listed. The directories are that of the user, which is below the one for configuration files, and
then that of the request. A run reads with the chosen dialect in the registry of all dialects, and
there is none exactly when none is chosen; a directory that cannot be listed fails the run. The
files of a directory that have the extension are taken in the byte order of their names, each one
after those before it.
-/
theorem setUp_determined_by_files (request : Request) (surroundings : Surroundings)
    (xyDecimals : Precision)
    : (∀ other, SameDialects request surroundings other
        → setUp request other xyDecimals = setUp request surroundings xyDecimals)
      ∧ dialectDirectories request surroundings
        = (surroundings.configDirectory.map fun config =>
              (Files.join config "gcode-block/dialects", DialectPriority.userGlobal)).toList
          ++ (request.dialectDirectory.map fun directory =>
              (directory, DialectPriority.explicit)).toList
      ∧ dialectName request = request.dialect.getD "linuxcnc"
      ∧ ((∀ entry ∈ dialectDirectories request surroundings,
            ¬ (surroundings.files entry.1).Unlistable)
          → (setUp request surroundings xyDecimals).2
            = match chosen request surroundings (dialectName request) with
              | none => .error (.dialect (.unknownDialect (dialectName request)))
              | some found =>
                  .ok {
                    registry :=
                      { gathered request surroundings with defaultName := dialectName request }
                    settings :=
                      { dialect := found.dialect, xyDecimals, verify := request.verify } })
      ∧ ((∃ entry ∈ dialectDirectories request surroundings,
            (surroundings.files entry.1).Unlistable)
          → ∃ fault, (setUp request surroundings xyDecimals).2 = .error (.directory fault))
      ∧ (∀ name, Files.hasExtension "toml" name
          ↔ ∃ stem ≠ [], name.toList = stem ++ '.' :: "toml".toList)
      ∧ (∀ directory names, ∃ sorted : List String,
          sorted.Perm (names.filter (Files.hasExtension "toml"))
          ∧ sorted.Pairwise (fun first second => Text.bytes first ≤ Text.bytes second)
          ∧ Registry.dialectPaths directory names = sorted.map (Files.join directory))
      ∧ ∀ registry directory priority loaded,
          Registry.loadDirectory registry surroundings.files directory priority = .ok loaded
          → Registry.LoadsInOrder surroundings.files priority registry
              (Registry.pathsOf surroundings.files directory) loaded := by
  refine ⟨fun other => setUp_congr, dialectDirectories_eq request surroundings, rfl, ?_, ?_,
    fun name => Files.hasExtension_iff (by decide), Registry.dialectPaths_sorted, ?_⟩
  · intro listable
    rcases setUp_cases request surroundings xyDecimals with ⟨closed, _⟩ | ⟨_, done⟩
    · obtain ⟨entry, member, closed⟩ := closed
      exact absurd closed (listable entry member)
    · exact done
  · intro closed
    rcases setUp_cases request surroundings xyDecimals with ⟨_, failed⟩ | ⟨listable, _⟩
    · exact failed
    · obtain ⟨entry, member, closed⟩ := closed
      exact absurd closed (listable entry member)
  · intro registry directory priority loaded done
    rcases registry.loadDirectory_cases surroundings.files directory priority with
      ⟨_, fault, failed⟩ | ⟨_, loaded', done', loads⟩
    · rw [done] at failed
      contradiction
    · cases done.symm.trans done'
      exact loads

/-- Two dialect files of the user, and two in a directory of their own, which both define the dialect
of one of the first two. Of these the first starts from the other dialect of the user, and the second
from the first.
-/
def millFiles (user own : List String) : Surroundings where
  files
    | "config/gcode-block/dialects" => .directory user
    | "config/gcode-block/dialects/lathe.toml" =>
        .file "[dialect]\nname = \"lathe\"\ninherits = \"linuxcnc\"\ndescription = \"user\"".toUTF8
    | "config/gcode-block/dialects/mill.toml" =>
        .file "[dialect]\nname = \"mill\"\ninherits = \"linuxcnc\"\ndescription = \"user\"".toUTF8
    | "dialects" => .directory own
    | "dialects/base.toml" => .file "[dialect]\nname = \"mill\"\ninherits = \"lathe\"".toUTF8
    | "dialects/own.toml" =>
        .file "[dialect]\nname = \"mill\"\ninherits = \"mill\"\ndescription = \"own\"".toUTF8
    | _ => .unreadable .notFound
  standardInput := "".toUTF8
  configDirectory := some "config"

/-- The files listed in order. -/
def millSorted : Surroundings :=
  millFiles ["lathe.toml", "mill.toml"] ["base.toml", "own.toml"]

/-- The files listed in another order. -/
def millListed : Surroundings :=
  millFiles ["mill.toml", "lathe.toml"] ["own.toml", "base.toml"]

def millRequest (dialect : String) : Request where
  dialect := some dialect
  dialectDirectory := some "dialects"

theorem join_config
    : Files.join "config" "gcode-block/dialects" = "config/gcode-block/dialects" := by
  decide +kernel

theorem dialectDirectories_mill {dialect : String} {user own : List String}
    : dialectDirectories (millRequest dialect) (millFiles user own)
      = [("config/gcode-block/dialects", .userGlobal), ("dialects", .explicit)] := by
  rw [dialectDirectories_eq]
  simp only [millFiles, millRequest, Option.map_some, Option.toList_some, join_config,
    List.cons_append, List.nil_append]

theorem pathsOf_millSorted
    : Registry.pathsOf millSorted.files "config/gcode-block/dialects"
        = ["config/gcode-block/dialects/lathe.toml", "config/gcode-block/dialects/mill.toml"]
      ∧ Registry.pathsOf millSorted.files "dialects"
        = ["dialects/base.toml", "dialects/own.toml"] := by
  have inOrder {directory : String} {names : List String}
      (files : names.filter (Files.hasExtension "toml") = names)
      (sorted : names.Pairwise fun first second => decide (first ≤ second) = true)
      : Registry.dialectPaths directory names = names.map (Files.join directory) := by
    rw [Registry.dialectPaths, files, List.mergeSort_of_pairwise sorted]
  have user : Registry.pathsOf millSorted.files "config/gcode-block/dialects"
      = ["lathe.toml", "mill.toml"].map (Files.join "config/gcode-block/dialects") :=
    inOrder (by decide +kernel) (by decide +kernel)
  have own : Registry.pathsOf millSorted.files "dialects"
      = ["base.toml", "own.toml"].map (Files.join "dialects") :=
    inOrder (by decide +kernel) (by decide +kernel)
  rw [user, own]
  decide +kernel

theorem sameDialects_mill (dialect : String)
    : SameDialects (millRequest dialect) millSorted millListed where
  directories := dialectDirectories_mill.trans dialectDirectories_mill.symm
  files := by
    rw [millSorted, dialectDirectories_mill, List.forall_mem_cons, List.forall_mem_singleton]
    refine ⟨⟨.directory (.swap _ _ _), fun names listed => ?_⟩,
      ⟨.directory (.swap _ _ _), fun names listed => ?_⟩⟩
    · cases listed
      change ∀ path ∈ Registry.pathsOf millSorted.files "config/gcode-block/dialects", _
      rw [pathsOf_millSorted.1, List.forall_mem_cons, List.forall_mem_singleton]
      exact ⟨rfl, rfl⟩
    · cases listed
      change ∀ path ∈ Registry.pathsOf millSorted.files "dialects", _
      rw [pathsOf_millSorted.2, List.forall_mem_cons, List.forall_mem_singleton]
      exact ⟨rfl, rfl⟩

/-- In whatever order the files are listed, a dialect that both directories define is that of the
last file of the second one, and a dialect that only files of the user define is theirs.
-/
theorem setUp_mill
    : setUp (millRequest "mill") millListed .standard
        = setUp (millRequest "mill") millSorted .standard
      ∧ (∃ setup, (setUp (millRequest "mill") millSorted .standard).2 = .ok setup
          ∧ setup.settings.dialect.description = some "own")
      ∧ ∃ setup, (setUp (millRequest "lathe") millSorted .standard).2 = .ok setup
          ∧ setup.settings.dialect.description = some "user" := by
  have config : millSorted.configDirectory = some "config" := rfl
  have named (dialect : String) : (millRequest dialect).dialectDirectory = some "dialects" := rfl
  have found
      : (chosen (millRequest "mill") millSorted "mill").bind (·.dialect.description) = some "own"
        ∧ (chosen (millRequest "lathe") millSorted "lathe").bind (·.dialect.description)
          = some "user" := by
    simp only [chosen, explicitDialects, userDialects, dialectsIn, named, config, Option.map_some,
      join_config, pathsOf_millSorted]
    decide +kernel
  have built (dialect description : String)
      (found
        : (chosen (millRequest dialect) millSorted dialect).bind (·.dialect.description)
          = some description)
      : ∃ setup, (setUp (millRequest dialect) millSorted .standard).2 = .ok setup
          ∧ setup.settings.dialect.description = some description := by
    obtain ⟨held, chosen, described⟩ := Option.bind_eq_some_iff.1 found
    obtain ⟨_, _, _, built, _⟩ :=
      setUp_determined_by_files (millRequest dialect) millSorted .standard
    have asked : dialectName (millRequest dialect) = dialect := rfl
    rw [built, asked, chosen]
    · exact ⟨_, rfl, described⟩
    · rw [millSorted, dialectDirectories_mill, List.forall_mem_cons, List.forall_mem_singleton]
      exact ⟨id, id⟩
  obtain ⟨same, _⟩ := setUp_determined_by_files (millRequest "mill") millSorted .standard
  exact ⟨same _ (sameDialects_mill "mill"), built _ _ found.1, built _ _ found.2⟩

end Gcode.CommandLine
