import Gcode.Proofs.Answer
import Gcode.Proofs.Dialect.Calls
import Gcode.Proofs.Text.ByteOrder
import Gcode.Proofs.Text.Run
import Mathlib.Data.List.TakeDrop

/-! Dialects in the files of directories.
The files of a directory are taken in the byte order of their names, whatever the order in which
they are listed, and each of them is read with what the registry holds when its turn comes. What
directories of rising priority come to is the last dialect of each name.
-/

namespace Gcode

-----------------------------------------------------------------------------------------
-- What is found
-----------------------------------------------------------------------------------------

namespace PathTarget

/-- Whether something is there, but no directory that can be read. -/
def Unlistable : PathTarget → Prop
  | unreadable fault => fault = .denied
  | file _ => True
  | directory _ => False

/-- The same thing is found, or the same names are listed in some order. -/
inductive SameListing : PathTarget → PathTarget → Prop where
  | refl (target : PathTarget) : SameListing target target
  | directory {names others : List String} (listed : names.Perm others)
    : SameListing (.directory names) (.directory others)

end PathTarget

namespace Files

/-- A text in a file declares the name of a dialect. -/
def Declares (files : Files) (path name : String) : Prop :=
  ∃ text file, files.readText path = .ok text ∧ DialectFile.read? text = some file
    ∧ file.name = name

/-- Two findings have the same dialect files in a directory, listed in any order. -/
structure SameDialectFiles (first second : Files) (directory : String) : Prop where
  listed : (first directory).SameListing (second directory)
  texts
    : ∀ names, first directory = .directory names → ∀ path ∈ Registry.dialectPaths directory names,
        second.readText path = first.readText path

/-- A file name has an extension when it is a stem, a point and the extension. -/
theorem hasExtension_iff {extension name : String} (plain : '.' ∉ extension.toList)
    : hasExtension extension name
      ↔ ∃ stem ≠ [], name.toList = stem ++ '.' :: extension.toList := by
  rw [hasExtension, List.span_eq_takeWhile_dropWhile]
  constructor
  · intro given
    split at given
    · rename_i found c before split
      obtain ⟨rfl, after⟩ := Prod.mk.inj split
      refine ⟨(c :: before).reverse, by simp, ?_⟩
      rw [← eq_of_beq given, ← List.reverse_inj, List.reverse_append, List.reverse_cons,
        List.reverse_reverse, List.reverse_reverse, List.append_assoc, List.singleton_append,
        ← after, List.takeWhile_append_dropWhile]
    · contradiction
  · intro given
    obtain ⟨stem, some, split⟩ := given
    have solid : ∀ d ∈ extension.toList.reverse, decide (d ≠ '.') := fun d member =>
      decide_eq_true fun point => plain (point ▸ List.mem_reverse.1 member)
    -- the search for the last point runs from the end of the name
    have turned : name.toList.reverse = extension.toList.reverse ++ '.' :: stem.reverse := by
      rw [split, List.reverse_append, List.reverse_cons, List.append_assoc, List.singleton_append]
    rw [turned, Text.takeWhile_run solid (by simp), Text.dropWhile_run solid (by simp)]
    cases before : stem.reverse with
    | nil => exact absurd (List.reverse_eq_nil_iff.1 before) some
    | cons c before => simp

end Files

namespace Registry

variable {registry : Registry} {files : Files} {priority : DialectPriority}
  {directory name path : String} {names paths before after : List String}
  {new : RegisteredDialect} {offered : List RegisteredDialect}

-----------------------------------------------------------------------------------------
-- The order of the files
-----------------------------------------------------------------------------------------

theorem pairwise_mergeSort_bytes (names : List String)
    : names.mergeSort.Pairwise fun first second => Text.bytes first ≤ Text.bytes second := by
  have sorted := @List.pairwise_mergeSort _ (fun first second => first ≤ second)
    (by simpa using fun _ _ _ => le_trans) (by simpa using le_total) names
  exact sorted.imp fun le => Text.le_iff_bytes_le.1 (of_decide_eq_true le)

/-- Names in byte order are known from the names without an order. -/
theorem eq_of_perm_of_pairwise_bytes {first second : List String} (same : first.Perm second)
    (h : first.Pairwise fun a b => Text.bytes a ≤ Text.bytes b)
    (h' : second.Pairwise fun a b => Text.bytes a ≤ Text.bytes b) : first = second := by
  refine same.eq_of_pairwise (fun a b _ _ le le' => ?_) h h'
  exact le_antisymm (Text.le_iff_bytes_le.2 le) (Text.le_iff_bytes_le.2 le')

theorem dialectPaths_eq_of_perm {others : List String} (listed : names.Perm others)
    : dialectPaths directory others = dialectPaths directory names := by
  have sorted (names : List String) := names.mergeSort_perm (· ≤ ·)
  have same := (sorted _).trans <|
    (listed.symm.filter (Files.hasExtension "toml")).trans (sorted _).symm
  rw [dialectPaths, dialectPaths, eq_of_perm_of_pairwise_bytes same (pairwise_mergeSort_bytes _)
    (pairwise_mergeSort_bytes _)]

/-- The dialect files of a directory are those of its names with the extension, in byte order. -/
theorem dialectPaths_sorted (directory : String) (names : List String)
    : ∃ sorted : List String,
        sorted.Perm (names.filter (Files.hasExtension "toml"))
        ∧ sorted.Pairwise (fun first second => Text.bytes first ≤ Text.bytes second)
        ∧ dialectPaths directory names = sorted.map (Files.join directory) :=
  ⟨_, List.mergeSort_perm _ _, pairwise_mergeSort_bytes _, rfl⟩

-----------------------------------------------------------------------------------------
-- One file
-----------------------------------------------------------------------------------------

theorem name_of_toDialect {file : DialectFile} {base : Option Dialect} {dialect : Dialect}
    (h : file.toDialect base = .ok dialect) : dialect.name = file.name := by
  obtain ⟨table, _, built⟩ := bind_eq_ok_iff.1 h
  obtain ⟨table, _, built⟩ := bind_eq_ok_iff.1 built
  split at built
  · contradiction
  · cases built
    rfl

/-- A file asks for a registration under the name that it declares. -/
theorem declares_of_registrationOf (h : registry.registrationOf files priority path = .ok new)
    : new.priority = priority ∧ new.source = some path
      ∧ files.Declares path new.dialect.name := by
  obtain ⟨dialect, found, made⟩ := bind_eq_ok_iff.1 h
  cases made
  refine ⟨rfl, rfl, ?_⟩
  rw [readFile] at found
  cases content : files.readText path with
  | error fault =>
      rw [content] at found
      contradiction
  | ok text =>
      simp only [content, mapError_eq_ok_iff, read] at found
      cases parsed : DialectFile.read? text with
      | none =>
          rw [parsed] at found
          contradiction
      | some file =>
          simp only [parsed, mapError_eq_ok_iff] at found
          obtain ⟨base, _, defined⟩ := bind_eq_ok_iff.1 found
          exact ⟨text, file, content, parsed, (name_of_toDialect defined).symm⟩

theorem registrationOf_congr {other : Files} (same : other.readText path = files.readText path)
    : registry.registrationOf other priority path
      = registry.registrationOf files priority path := by
  simp only [registrationOf, readFile, same]

-----------------------------------------------------------------------------------------
-- Files one after the other
-----------------------------------------------------------------------------------------

/-- The registry after files. -/
def afterFiles (files : Files) (priority : DialectPriority) (registry : Registry)
    (paths : List String) : Registry :=
  (offersOfFiles files priority registry paths).foldl insert registry

/-- The dialects that are stored among those that are offered one after the other. -/
def stored (registry : Registry) : List RegisteredDialect → List RegisteredDialect
  | [] => []
  | new :: offered =>
      if registry.admits new then new :: (registry.insert new).stored offered
      else (registry.insert new).stored offered

theorem offersOfFiles_append (before after : List String)
    : offersOfFiles files priority registry (before ++ after)
      = offersOfFiles files priority registry before
        ++ offersOfFiles files priority (afterFiles files priority registry before) after := by
  induction before generalizing registry with
  | nil => rfl
  | cons path before ih =>
      rw [List.cons_append, offersOfFiles, afterFiles, offersOfFiles]
      cases registry.registrationOf files priority path with
      | error fault => exact ih
      | ok new => exact congrArg (new :: ·) ih

theorem count_foldl_loadNext (paths : List String) (loaded : Loaded)
    : (paths.foldl (loadNext files priority) loaded).count
      = loaded.count
        + (loaded.registry.stored
            (offersOfFiles files priority loaded.registry paths)).length := by
  induction paths generalizing loaded with
  | nil => rfl
  | cons path paths ih =>
      rw [List.foldl_cons, ih, loadNext, offersOfFiles]
      cases loaded.registry.registrationOf files priority path with
      | error fault => rfl
      | ok new =>
          simp only [stored]
          split <;> simp [Nat.add_assoc, Nat.add_comm 1]

/-- What is known after files were loaded one after the other. A file is read with what the
registry holds after the files before it. One that cannot be loaded counts as if it were not there.
The dialects are those that the files declare, and those that are stored are counted.
-/
structure LoadsInOrder (files : Files) (priority : DialectPriority) (registry : Registry)
    (paths : List String) (loaded : Loaded) : Prop where
  held : loaded.registry = afterFiles files priority registry paths
  read
    : ∀ before path after new, paths = before ++ path :: after
        → (afterFiles files priority registry before).registrationOf files priority path = .ok new
        → offersOfFiles files priority registry paths
          = offersOfFiles files priority registry before
            ++ new
              :: offersOfFiles files priority
                ((afterFiles files priority registry before).insert new) after
  skipped
    : ∀ before path after fault, paths = before ++ path :: after
        → (afterFiles files priority registry before).registrationOf files priority path
          = .error fault
        → offersOfFiles files priority registry paths
          = offersOfFiles files priority registry (before ++ after)
  declared
    : ∀ offer ∈ offersOfFiles files priority registry paths,
        offer.priority = priority
        ∧ ∃ path ∈ paths, offer.source = some path ∧ files.Declares path offer.dialect.name
  count
    : loaded.count
      = (registry.stored (offersOfFiles files priority registry paths)).length

theorem declared_of_mem_offersOfFiles {offer : RegisteredDialect}
    (member : offer ∈ offersOfFiles files priority registry paths)
    : offer.priority = priority
      ∧ ∃ path ∈ paths, offer.source = some path ∧ files.Declares path offer.dialect.name := by
  induction paths generalizing registry with
  | nil => contradiction
  | cons path paths ih =>
      rw [offersOfFiles] at member
      have later {registry : Registry}
          (member : offer ∈ offersOfFiles files priority registry paths)
          : offer.priority = priority
            ∧ ∃ other ∈ path :: paths, offer.source = some other
              ∧ files.Declares other offer.dialect.name := by
        obtain ⟨level, other, listed, declares⟩ := ih member
        exact ⟨level, other, List.mem_cons_of_mem _ listed, declares⟩
      cases read : registry.registrationOf files priority path with
      | error fault =>
          rw [read] at member
          exact later member
      | ok new =>
          rw [read] at member
          rcases List.mem_cons.1 member with rfl | member
          · obtain ⟨level, source, declares⟩ := declares_of_registrationOf read
            exact ⟨level, path, List.mem_cons_self, source, declares⟩
          · exact later member

theorem loadsInOrder (files : Files) (priority : DialectPriority) (registry : Registry)
    (paths : List String)
    : LoadsInOrder files priority registry paths
        (paths.foldl (loadNext files priority) { registry }) where
  held := registry_foldl_loadNext files priority paths _
  read before path after new split found := by
    rw [split, offersOfFiles_append, offersOfFiles, found]
  skipped before path after fault split found := by
    rw [split, offersOfFiles_append, offersOfFiles_append, offersOfFiles, found]
  declared offer member := declared_of_mem_offersOfFiles member
  count := by rw [count_foldl_loadNext, Nat.zero_add]

-----------------------------------------------------------------------------------------
-- A directory
-----------------------------------------------------------------------------------------

/-- The paths of the files that loading a directory takes, in order. -/
def pathsOf (files : Files) (directory : String) : List String :=
  match files directory with
  | .directory names => dialectPaths directory names
  | _ => []

/-- A directory cannot be loaded exactly when something else is in its place or it must not be
read.
-/
theorem loadDirectory_cases (registry : Registry) (files : Files) (directory : String)
    (priority : DialectPriority)
    : ((files directory).Unlistable
        ∧ ∃ fault, registry.loadDirectory files directory priority = .error fault)
      ∨ (¬ (files directory).Unlistable
        ∧ ∃ loaded, registry.loadDirectory files directory priority = .ok loaded
          ∧ LoadsInOrder files priority registry (pathsOf files directory) loaded) := by
  rw [loadDirectory, pathsOf]
  cases files directory with
  | file content => exact .inl ⟨trivial, _, rfl⟩
  | directory names => exact .inr ⟨id, _, rfl, loadsInOrder files priority registry _⟩
  | unreadable fault =>
      by_cases denied : fault = .denied
      · subst denied
        exact .inl ⟨rfl, _, rfl⟩
      · refine .inr ⟨denied, { registry }, ?_, loadsInOrder files priority registry []⟩
        cases fault <;> first | contradiction | rfl

theorem loadDirectory_congr {other : Files} (same : files.SameDialectFiles other directory)
    : registry.loadDirectory other directory priority
      = registry.loadDirectory files directory priority := by
  have texts := same.texts
  have listed := same.listed
  rw [loadDirectory, loadDirectory]
  generalize files directory = found at listed texts ⊢
  generalize other directory = found' at listed ⊢
  have step {names : List String} (texts : ∀ path ∈ dialectPaths directory names,
      other.readText path = files.readText path)
      : (dialectPaths directory names).foldl (loadNext other priority) { registry }
        = (dialectPaths directory names).foldl (loadNext files priority) { registry } := by
    refine List.foldl_ext _ _ _ fun loaded path member => ?_
    rw [loadNext, loadNext, registrationOf_congr (texts path member)]
  cases listed with
  | refl =>
      cases found with
      | directory names => exact congrArg Except.ok (step (texts names rfl))
      | file content => rfl
      | unreadable fault => cases fault <;> rfl
  | @directory names others listed =>
      refine congrArg Except.ok ?_
      rw [dialectPaths_eq_of_perm listed]
      exact step (texts names rfl)

-----------------------------------------------------------------------------------------
-- Offers of rising priority
-----------------------------------------------------------------------------------------

/-- The last dialect of a name. -/
def lastNamed (name : String) (offered : List RegisteredDialect) : Option RegisteredDialect :=
  (offered.filter (·.dialect.name == name)).getLast?

theorem lastNamed_append {more : List RegisteredDialect}
    : lastNamed name (offered ++ more) = (lastNamed name more).or (lastNamed name offered) := by
  rw [lastNamed, List.filter_append, List.getLast?_append]
  rfl

theorem lastNamed_singleton
    : lastNamed name [new] = if new.dialect.name = name then some new else none := by
  by_cases same : new.dialect.name = name <;> simp [lastNamed, same]

theorem name_of_lastNamed {held : RegisteredDialect} (h : lastNamed name offered = some held)
    : held ∈ offered ∧ held.dialect.name = name := by
  have member := List.mem_of_getLast? h
  simpa using member

/-- When priorities only rise, the last dialect of a name is the one that counts. -/
theorem governs_iff_lastNamed {held : RegisteredDialect}
    (rising : offered.Pairwise (·.priority.rank ≤ ·.priority.rank))
    : Governs offered name held ↔ lastNamed name offered = some held := by
  induction offered using List.reverseRecOn with
  | nil => simp [Governs, lastNamed]
  | append_singleton offered new ih =>
      obtain ⟨rising, _, last⟩ := List.pairwise_append.1 rising
      have below : ∀ other ∈ offered, other.priority.rank ≤ new.priority.rank :=
        fun other member => last other member new List.mem_cons_self
      rw [governs_concat_iff, ih rising, lastNamed_append, lastNamed_singleton]
      by_cases same : new.dialect.name = name
      · rw [if_pos same, Option.some_or, Option.some.injEq]
        constructor
        · rintro (⟨rfl, _⟩ | ⟨found, higher⟩)
          · rfl
          · exact absurd (below held (name_of_lastNamed found).1) (Nat.not_le.2 (higher same))
        · rintro rfl
          exact .inl ⟨rfl, same, fun other member _ => below other member⟩
      · simp [same]

theorem Reflects.get?_eq_lastNamed (h : registry.Reflects offered)
    (rising : offered.Pairwise (·.priority.rank ≤ ·.priority.rank))
    : registry.get? name = lastNamed name offered := by
  ext held
  rw [h.held, governs_iff_lastNamed rising]

end Registry
end Gcode
