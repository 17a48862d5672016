import Gcode.Dialect.Calls
import Gcode.Proofs.Dialect.Registry

/-! What a registry holds after calls.
A call offers dialects to the registry: none, one, or those of a directory one after the other. All
that a registry holds is known from the dialects that its calls offered, and its default name from
the names that were made the default.
-/

namespace Gcode

/-- A call that has at most one dialect to offer. -/
def RegistryCall.offersOne : RegistryCall → Bool
  | register .. => true
  | loadFile .. => true
  | _ => false

/-- The name that a call with an answer made the default. -/
def RegistryCall.choice : RegistryCall → RegistryAnswer → Option String
  | .setDefault name, .done => some name
  | _, _ => none

namespace Registry

section Calls

variable {registry : Registry} {call : RegistryCall} {name : String}

-----------------------------------------------------------------------------------------
-- One call
-----------------------------------------------------------------------------------------

/-- The dialects that are offered by files one after the other. Each file is read with what the
registry holds when its turn comes.
-/
def offersOfFiles (files : Files) (priority : DialectPriority) (registry : Registry)
    : List String → List RegisteredDialect
  | [] => []
  | path :: paths =>
      match registry.registrationOf files priority path with
      | .ok new => new :: offersOfFiles files priority (registry.insert new) paths
      | .error _ => offersOfFiles files priority registry paths

/-- The dialects that a call offers. -/
def offersOf (registry : Registry) : RegistryCall → List RegisteredDialect
  | .register dialect priority => [{ dialect, priority }]
  | .loadFile files path priority => offersOfFiles files priority registry [path]
  | .loadDirectory files directory priority =>
      match files directory with
      | .directory names => offersOfFiles files priority registry (dialectPaths directory names)
      | _ => []
  | .setDefault _ => []

/-- What comes of a call: the one dialect that it offers is answered for, or those of a directory
are stored one after the other, or nothing is offered and the call fails; and a name is made the
default or refused, as there is a dialect with it or not.
-/
inductive Effect (registry : Registry) : RegistryCall → RegistryAnswer × Registry → Prop where
  | offered {call : RegistryCall} (one : call.offersOne) (new : RegisteredDialect)
    (offers : registry.offersOf call = [new]) : Effect registry call (registry.offer new)
  | loaded {files : Files} {directory : String} {priority : DialectPriority} (count : Nat)
    : Effect registry (.loadDirectory files directory priority)
        (.loaded count,
          (registry.offersOf (.loadDirectory files directory priority)).foldl insert registry)
  | failed {call : RegistryCall} (fault : LoadError) (offers : registry.offersOf call = [])
    : Effect registry call (.failed fault, registry)
  | chosen {name : String} {held : RegisteredDialect} (found : registry.get? name = some held)
    : Effect registry (.setDefault name) (.done, { registry with defaultName := name })
  | refused {name : String} (none : registry.get? name = none)
    : Effect registry (.setDefault name) (.refused (.unknownDialect name), registry)

theorem registry_foldl_loadNext (files : Files) (priority : DialectPriority) (paths : List String)
    (loaded : Loaded)
    : (paths.foldl (loadNext files priority) loaded).registry
      = (offersOfFiles files priority loaded.registry paths).foldl insert loaded.registry := by
  induction paths generalizing loaded with
  | nil => rfl
  | cons path paths ih =>
      rw [List.foldl_cons, ih, loadNext, offersOfFiles]
      cases loaded.registry.registrationOf files priority path <;> rfl

theorem effect_loadFile (files : Files) (path : String) (priority : DialectPriority)
    : Effect registry (.loadFile files path priority)
        (registry.perform (.loadFile files path priority)) := by
  rw [perform]
  cases read : registry.registrationOf files priority path with
  | ok new => exact .offered rfl new (by simp only [offersOf, offersOfFiles, read])
  | error fault => exact .failed fault (by simp only [offersOf, offersOfFiles, read])

theorem effect_loadDirectory (files : Files) (directory : String) (priority : DialectPriority)
    : Effect registry (.loadDirectory files directory priority)
        (registry.perform (.loadDirectory files directory priority)) := by
  have loaded (count : Nat)
      : Effect registry (.loadDirectory files directory priority) (.loaded count, _) :=
    .loaded count
  cases found : files directory with
  | directory names =>
      have stored := registry_foldl_loadNext files priority (dialectPaths directory names)
        { registry }
      simp only [offersOf, found] at loaded
      simp only [perform, loadDirectory, found]
      rw [stored]
      exact loaded _
  | file content =>
      have offers : registry.offersOf (.loadDirectory files directory priority) = [] := by
        simp only [offersOf, found]
      simp only [perform, loadDirectory, found]
      exact .failed _ offers
  | unreadable fault =>
      have offers : registry.offersOf (.loadDirectory files directory priority) = [] := by
        simp only [offersOf, found]
      rw [offers] at loaded
      simp only [perform, loadDirectory, found]
      by_cases denied : fault = .denied
      · subst denied
        exact .failed _ offers
      · cases fault <;> first | contradiction | exact loaded _

theorem effect_setDefault (name : String)
    : Effect registry (.setDefault name) (registry.perform (.setDefault name)) := by
  cases found : registry.get? name with
  | none =>
      have refused : registry.setDefault name = .error (.unknownDialect name) := by
        simp only [setDefault, resolve, found]
        rfl
      rw [perform, refused]
      exact .refused found
  | some held =>
      have chosen : registry.setDefault name = .ok { registry with defaultName := name } := by
        simp only [setDefault, resolve, found]
        rfl
      rw [perform, chosen]
      exact .chosen found

theorem effect_perform (registry : Registry) (call : RegistryCall)
    : Effect registry call (registry.perform call) := by
  cases call with
  | register dialect priority => exact .offered rfl _ rfl
  | loadFile files path priority => exact effect_loadFile files path priority
  | loadDirectory files directory priority => exact effect_loadDirectory files directory priority
  | setDefault name => exact effect_setDefault name

/-- The name that a call makes the default. -/
def choiceOf (registry : Registry) (call : RegistryCall) : Option String :=
  call.choice (registry.perform call).1

/-- Under every name there is after a call what there is when its dialects are stored. -/
theorem get?_perform (registry : Registry) (call : RegistryCall) (name : String)
    : (registry.perform call).2.get? name
      = ((registry.offersOf call).foldl insert registry).get? name := by
  have effect := registry.effect_perform call
  generalize registry.perform call = result at effect ⊢
  cases effect with
  | offered one new offers =>
      rw [offers]
      rfl
  | loaded count => rfl
  | failed fault offers =>
      rw [offers]
      rfl
  | chosen found => rfl
  | refused none => rfl

theorem defaultName_foldl (offered : List RegisteredDialect)
    : (offered.foldl insert registry).defaultName = registry.defaultName := by
  induction offered generalizing registry with
  | nil => rfl
  | cons new offered ih => exact ih.trans defaultName_insert

theorem choice_of_offersOne {answer : RegistryAnswer} (one : call.offersOne)
    : call.choice answer = none := by
  cases call with
  | register dialect priority => rfl
  | loadFile files path priority => rfl
  | loadDirectory files directory priority => contradiction
  | setDefault name => contradiction

/-- Only a call that makes a name the default changes the default name. -/
theorem defaultName_perform (registry : Registry) (call : RegistryCall)
    : (registry.perform call).2.defaultName
      = (registry.choiceOf call).getD registry.defaultName := by
  rw [choiceOf]
  have effect := registry.effect_perform call
  generalize registry.perform call = result at effect ⊢
  cases effect with
  | offered one new offers =>
      rw [choice_of_offersOne one]
      exact defaultName_insert
  | loaded count => exact defaultName_foldl _
  | failed fault offers => cases call <;> rfl
  | chosen found => rfl
  | refused none => rfl

/-- What holds of a call to a registry. It only changes what is under the names of the dialects
that it offers, and it keeps the default name unless it is there to change it. A call that has one
dialect to offer says whether this is what the registry holds afterwards, and fails if there is
none. A call that fails changes nothing.
-/
structure Handles (registry : Registry) (call : RegistryCall) : Prop where
  others
    : ∀ name, (∀ offer ∈ registry.offersOf call, offer.dialect.name ≠ name)
        → (registry.perform call).2.get? name = registry.get? name
  defaultName
    : (∀ name, call ≠ .setDefault name)
        → (registry.perform call).2.defaultName = registry.defaultName
  stored
    : call.offersOne → ∀ offer ∈ registry.offersOf call, ∃ admitted,
        (registry.perform call).1 = .stored admitted
        ∧ (admitted ↔ (registry.perform call).2.get? offer.dialect.name = some offer)
  failed
    : call.offersOne → registry.offersOf call = []
        → ∃ fault, (registry.perform call).1 = .failed fault
  unchanged : (registry.perform call).1.isError → (registry.perform call).2 = registry

theorem get?_foldl_of_others {offered : List RegisteredDialect}
    (others : ∀ offer ∈ offered, offer.dialect.name ≠ name)
    : (offered.foldl insert registry).get? name = registry.get? name := by
  induction offered generalizing registry with
  | nil => rfl
  | cons new offered ih =>
      obtain ⟨other, others⟩ := List.forall_mem_cons.1 others
      rw [List.foldl_cons, ih others, get?_insert, if_neg fun both => other both.1]

theorem handles (registry : Registry) (call : RegistryCall) : registry.Handles call where
  others name others := by rw [get?_perform, get?_foldl_of_others others]
  defaultName other := by
    rw [defaultName_perform, choiceOf]
    cases call with
    | setDefault name => exact absurd rfl (other name)
    | register dialect priority => rfl
    | loadFile files path priority => rfl
    | loadDirectory files directory priority => rfl
  stored one offer member := by
    have effect := registry.effect_perform call
    generalize registry.perform call = result at effect ⊢
    cases effect with
    | offered one new offers =>
        obtain rfl := List.mem_singleton.1 (offers ▸ member)
        exact ⟨registry.admits offer, rfl, admits_iff_get?_insert⟩
    | loaded count => contradiction
    | failed fault offers =>
        rw [offers] at member
        contradiction
    | chosen found => contradiction
    | refused none => contradiction
  failed one none := by
    have effect := registry.effect_perform call
    generalize registry.perform call = result at effect ⊢
    cases effect with
    | offered one new offers =>
        rw [offers] at none
        contradiction
    | loaded count => contradiction
    | failed fault offers => exact ⟨fault, rfl⟩
    | chosen found => contradiction
    | refused found => contradiction
  unchanged failed := by
    have effect := registry.effect_perform call
    generalize registry.perform call = result at effect failed ⊢
    cases effect with
    | offered one new offers => contradiction
    | loaded count => contradiction
    | failed fault offers => rfl
    | chosen found => contradiction
    | refused none => rfl

theorem grows_perform (registry : Registry) (call : RegistryCall)
    : registry.Grows (registry.perform call).2 := by
  intro name held found
  rw [get?_perform]
  exact grows_foldl _ name held found

theorem Reflects.perform {offered : List RegisteredDialect} (h : registry.Reflects offered)
    (call : RegistryCall)
    : (registry.perform call).2.Reflects (offered ++ registry.offersOf call) :=
  (h.foldl _).congr (registry.get?_perform call)

/-- A name that was made the default is one of a dialect. -/
theorem exists_of_choiceOf (chosen : registry.choiceOf call = some name)
    : ∃ held, registry.get? name = some held := by
  rw [choiceOf] at chosen
  have effect := registry.effect_perform call
  generalize registry.perform call = result at effect chosen
  cases effect with
  | offered one new offers =>
      rw [choice_of_offersOne one] at chosen
      contradiction
  | loaded count => contradiction
  | failed fault offers => cases call <;> contradiction
  | @chosen asked held found =>
      cases chosen
      exact ⟨held, found⟩
  | refused none => contradiction

-----------------------------------------------------------------------------------------
-- Calls one after the other
-----------------------------------------------------------------------------------------

/-- The dialects that calls offer, one after the other. -/
def offers (registry : Registry) : List RegistryCall → List RegisteredDialect
  | [] => []
  | call :: calls => registry.offersOf call ++ (registry.perform call).2.offers calls

/-- The names that calls make the default, one after the other. -/
def choices (registry : Registry) : List RegistryCall → List String
  | [] => []
  | call :: calls => (registry.choiceOf call).toList ++ (registry.perform call).2.choices calls

theorem run_append (calls more : List RegistryCall)
    : registry.run (calls ++ more) = (registry.run calls).run more := by
  induction calls generalizing registry with
  | nil => rfl
  | cons call calls ih => exact ih

theorem grows_run (registry : Registry) (calls : List RegistryCall)
    : registry.Grows (registry.run calls) := by
  induction calls generalizing registry with
  | nil => exact .refl registry
  | cons call calls ih => exact (registry.grows_perform call).trans (ih _)

/-- What a registry holds is known from all dialects that were ever offered to it, by induction on
the calls.
-/
theorem Reflects.run {offered : List RegisteredDialect} (h : registry.Reflects offered)
    (calls : List RegistryCall)
    : (registry.run calls).Reflects (offered ++ registry.offers calls) := by
  induction calls generalizing registry offered with
  | nil => rwa [offers, List.append_nil]
  | cons call calls ih =>
      rw [offers, ← List.append_assoc]
      exact ih (h.perform call)

/-- The default name is the last one that was made the default. -/
theorem defaultName_run (registry : Registry) (calls : List RegistryCall)
    : (registry.run calls).defaultName
      = (registry.choices calls).getLast?.getD registry.defaultName := by
  induction calls generalizing registry with
  | nil => rfl
  | cons call calls ih =>
      rw [run, ih, defaultName_perform, choices, List.getLast?_append]
      cases ((registry.perform call).2.choices calls).getLast? with
      | none => cases registry.choiceOf call <;> rfl
      | some name => rfl

/-- A name that was made the default stays that of a dialect. -/
theorem exists_of_mem_choices {calls : List RegistryCall} (member : name ∈ registry.choices calls)
    : ∃ held, (registry.run calls).get? name = some held := by
  induction calls generalizing registry with
  | nil => contradiction
  | cons call calls ih =>
      rcases List.mem_append.1 member with chosen | member
      · obtain ⟨held, found⟩ := exists_of_choiceOf (Option.mem_toList.1 chosen)
        obtain ⟨later, found, _⟩ := registry.grows_run (call :: calls) name held found
        exact ⟨later, found⟩
      · exact ih member

/-- There is no default dialect exactly when there is no dialect with the default name. -/
theorem default_eq_error_iff
    : (∃ error, registry.default = .error error)
      ↔ registry.get? registry.defaultName = none := by
  rw [default, resolve]
  cases registry.get? registry.defaultName <;> simp

/-- There is no default dialect after calls exactly when none of them made a name the default, and
there is no dialect with the name that was the default before them.
-/
theorem default_run_eq_error_iff (registry : Registry) (calls : List RegistryCall)
    : (∃ error, (registry.run calls).default = .error error)
      ↔ registry.choices calls = [] ∧ (registry.run calls).get? registry.defaultName = none := by
  rw [default_eq_error_iff, defaultName_run]
  cases last : (registry.choices calls).getLast? with
  | none => simp [List.getLast?_eq_none_iff.1 last]
  | some name =>
      have member := List.mem_of_getLast? last
      obtain ⟨held, found⟩ := exists_of_mem_choices member
      simp [found, List.ne_nil_of_mem member]

end Calls

-----------------------------------------------------------------------------------------
-- From the start
-----------------------------------------------------------------------------------------

/-- The registries that calls start from. -/
inductive Start where
  | empty
  | builtIn

def Start.registry : Start → Registry
  | empty => Registry.empty
  | builtIn => Registry.builtIn

/-- The dialects that count as offered before any call. -/
def Start.offers : Start → List RegisteredDialect
  | empty => []
  | builtIn => [{ dialect := Dialect.linuxCnc, priority := .builtIn }]

theorem Start.reflects (start : Start) : start.registry.Reflects start.offers := by
  cases start with
  | empty => exact reflects_empty
  | builtIn => exact reflects_empty.insert

theorem Start.defaultName (start : Start) : start.registry.defaultName = "linuxcnc" := by
  cases start with
  | empty => rfl
  | builtIn => exact defaultName_insert

/-- What is known of a registry after any calls. Under each name it holds the last one of the
dialects of highest priority among all that were offered under it, and so names never disappear
and what is under them never loses priority. The default name is the last one that was made the
default, and there is a dialect with it unless none was made the default and no dialect was offered
under the first default name; one is built in.
-/
theorem run_holds_best_offers (start : Start) (calls : List RegistryCall)
    : (start.registry.run calls).Reflects (start.offers ++ start.registry.offers calls)
      ∧ (∀ more, (start.registry.run calls).Grows (start.registry.run (calls ++ more)))
      ∧ (∀ call, (start.registry.run calls).Handles call)
      ∧ (start.registry.run calls).defaultName
        = (start.registry.choices calls).getLast?.getD "linuxcnc"
      ∧ ((∃ error, (start.registry.run calls).default = .error error)
        ↔ start = .empty ∧ start.registry.choices calls = []
            ∧ ∀ offer ∈ start.registry.offers calls, offer.dialect.name ≠ "linuxcnc") := by
  have reflects := start.reflects.run calls
  refine ⟨reflects, ?_, fun call => handles _ call, ?_, ?_⟩
  · intro more
    rw [run_append]
    exact grows_run _ more
  · rw [defaultName_run, start.defaultName]
  · rw [default_run_eq_error_iff, start.defaultName, reflects.absent]
    cases start with
    | empty => simp [Start.offers]
    | builtIn =>
        have named : Dialect.linuxCnc.name = "linuxcnc" := rfl
        simp [Start.offers, named]

end Registry
end Gcode
