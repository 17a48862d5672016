/-! Hash tables.
Every key is in the bucket of its hash, and only keys of one bucket are compared.
-/

namespace Gcode

/-- A hash table: for each hash, what has keys with that hash, newest first. -/
abbrev HashTable (κ ν : Type) := Nat → List (κ × ν)

namespace HashTable

variable {κ ν : Type}

def empty : HashTable κ ν :=
  fun _ => []

/-- What a table has for a key; only keys with the same hash are compared. -/
def find? (hash : κ → Nat) (same : κ → κ → Bool) (table : HashTable κ ν) (key : κ) : Option ν :=
  ((table (hash key)).find? fun entry => same entry.1 key).map Prod.snd

/-- Puts a value under a key. What was there is displaced and returned; only keys with the same
hash are compared.
-/
def insert (hash : κ → Nat) (same : κ → κ → Bool) (table : HashTable κ ν) (key : κ) (value : ν)
    : Option ν × HashTable κ ν :=
  let bucket := table (hash key)
  ((bucket.find? fun entry => same entry.1 key).map Prod.snd,
    fun h =>
      if h = hash key then (key, value) :: bucket.filter fun entry => !same entry.1 key
      else table h)

/-- The table that entries are put into one after another. -/
def ofEntries (hash : κ → Nat) (same : κ → κ → Bool) (entries : List (κ × ν)) : HashTable κ ν :=
  entries.foldl (fun table entry => (table.insert hash same entry.1 entry.2).2) empty

/-- The keys that go into a set with other keys in it: a key is left out when the set has it. -/
def addKeys (hash : κ → Nat) (same : κ → κ → Bool) (set : HashTable κ Unit) : List κ → List κ
  | [] => []
  | key :: keys =>
      match set.find? hash same key with
      | some _ => addKeys hash same set keys
      | none => key :: addKeys hash same (set.insert hash same key ()).2 keys

end HashTable
end Gcode
