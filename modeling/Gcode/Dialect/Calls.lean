import Gcode.Dialect.Registry

/-! The calls that change a registry, and what each of them answers.
What can fail in a call comes before anything is stored, so a call that fails leaves the registry
as it is.
-/

namespace Gcode

inductive RegistryCall where
  | register (dialect : Dialect) (priority : DialectPriority)
  | loadFile (files : Files) (path : String) (priority : DialectPriority)
  | loadDirectory (files : Files) (directory : String) (priority : DialectPriority)
  | setDefault (name : String)

inductive RegistryAnswer where
  /-- Whether the dialect was stored. -/
  | stored (admitted : Bool)
  /-- How many dialects of a directory were stored. -/
  | loaded (count : Nat)
  | done
  | refused (error : Error)
  | failed (fault : LoadError)

namespace RegistryAnswer

def isError : RegistryAnswer → Bool
  | refused _ => true
  | failed _ => true
  | _ => false

end RegistryAnswer

namespace Registry

/-- The answer to a dialect that is offered, and the registry after it. -/
def offer (registry : Registry) (new : RegisteredDialect) : RegistryAnswer × Registry :=
  (.stored (registry.admits new), registry.insert new)

/-- The answer to a call, and the registry after it. -/
def perform (registry : Registry) : RegistryCall → RegistryAnswer × Registry
  | .register dialect priority => registry.offer { dialect, priority }
  | .loadFile files path priority =>
      match registry.registrationOf files priority path with
      | .ok new => registry.offer new
      | .error fault => (.failed fault, registry)
  | .loadDirectory files directory priority =>
      match registry.loadDirectory files directory priority with
      | .ok after => (.loaded after.count, after.registry)
      | .error fault => (.failed fault, registry)
  | .setDefault name =>
      match registry.setDefault name with
      | .ok after => (.done, after)
      | .error error => (.refused error, registry)

/-- The registry after calls, one after the other. -/
def run (registry : Registry) : List RegistryCall → Registry
  | [] => registry
  | call :: calls => (registry.perform call).2.run calls

end Registry
end Gcode
