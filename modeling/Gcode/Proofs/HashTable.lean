import Gcode.HashTable

/-! Look-up in hash tables.
Where equal keys have equal hashes, a hash table finds what a search through all of its entries
finds, whatever the hashes are.
-/

namespace Gcode.HashTable

variable {κ ν : Type} {hash : κ → Nat} {same : κ → κ → Bool} {table : HashTable κ ν}
  {entries : List (κ × ν)} {key other : κ}

-----------------------------------------------------------------------------------------
-- The entries of a table
-----------------------------------------------------------------------------------------

/-- A table has exactly these entries, each in the bucket of its hash. -/
def Holds (hash : κ → Nat) (table : HashTable κ ν) (entries : List (κ × ν)) : Prop :=
  ∀ h, table h = entries.filter fun entry => hash entry.1 = h

theorem holds_empty : Holds hash (empty : HashTable κ ν) [] :=
  fun _ => rfl

/-- An entry with an equal key is displaced, since equal keys have equal hashes. -/
theorem Holds.insert_of_found {first : ν} (h : Holds hash table entries)
    (hashed : ∀ other, same other key → hash other = hash key)
    (found : (entries.find? fun entry => same entry.1 key).map Prod.snd = some first) (value : ν)
    : ∃ next, table.insert hash same key value = (some first, next) := by
  have bucket : (table (hash key)).find? (fun entry => same entry.1 key)
      = entries.find? fun entry => same entry.1 key := by
    rw [h, List.find?_filter]
    congr 1
    funext entry
    simpa using hashed entry.1
  rw [insert, bucket, found]
  exact ⟨_, rfl⟩

/-- Without an equal key nothing is displaced, and the new entry is added. -/
theorem Holds.insert_of_absent (h : Holds hash table entries)
    (absent : (entries.find? fun entry => same entry.1 key).map Prod.snd = none) (value : ν)
    : ∃ next, table.insert hash same key value = (none, next)
        ∧ Holds hash next ((key, value) :: entries) := by
  have other : ∀ entry ∈ table (hash key), ¬ same entry.1 key := by
    intro entry inside
    rw [h] at inside
    exact List.find?_eq_none.1 (Option.map_eq_none_iff.1 absent) entry (List.mem_filter.1 inside).1
  have nothing : (table (hash key)).find? (fun entry => same entry.1 key) = none :=
    List.find?_eq_none.2 other
  have kept : (table (hash key)).filter (fun entry => !same entry.1 key) = table (hash key) :=
    List.filter_eq_self.2 fun entry inside => by simp [other entry inside]
  refine ⟨_, by rw [insert, nothing]; rfl, ?_⟩
  intro code
  dsimp only
  rw [kept]
  by_cases here : code = hash key
  · rw [if_pos here, List.filter_cons_of_pos (by simp [here]), here, h]
  · rw [if_neg here, List.filter_cons_of_neg (by simp [Ne.symm here]), h]

-----------------------------------------------------------------------------------------
-- Look-up after insertions
-----------------------------------------------------------------------------------------

/-- Equality of keys that hashes respect. -/
structure Respects (hash : κ → Nat) (same : κ → κ → Bool) : Prop where
  symm {key other : κ} : same key other → same other key
  trans {key other third : κ} : same key other → same other third → same key third
  hash {key other : κ} : same key other → hash key = hash other

/-- One insertion changes what is found for equal keys, and for no other key. -/
theorem find?_insert (h : Respects hash same) (table : HashTable κ ν) (key other : κ) (value : ν)
    : (table.insert hash same key value).2.find? hash same other
      = if same key other then some value else table.find? hash same other := by
  unfold insert find?
  dsimp only
  cases equal : same key other with
  | true =>
      rw [if_pos (h.hash equal).symm, List.find?_cons, equal]
      rfl
  | false =>
      rw [if_neg Bool.false_ne_true]
      by_cases hashes : hash other = hash key
      · rw [if_pos hashes, List.find?_cons, equal, List.find?_filter, hashes]
        dsimp only
        congr 2
        funext entry
        -- an entry that is displaced is not the one that is looked for
        cases found : same entry.1 other with
        | false => simp
        | true =>
            have kept : same entry.1 key = false := by
              rw [← Bool.not_eq_true]
              intro displaced
              exact absurd (h.trans (h.symm displaced) found) (by simp [equal])
            simp [kept]
      · rw [if_neg hashes]

/-- The last entry with an equal key is found, by induction on the entries. -/
theorem find?_foldl_insert (h : Respects hash same) (entries : List (κ × ν))
    (table : HashTable κ ν) (key : κ)
    : (entries.foldl (fun table entry => (table.insert hash same entry.1 entry.2).2) table).find?
          hash same key
      = ((entries.reverse.find? fun entry => same entry.1 key).map Prod.snd).or
          (table.find? hash same key) := by
  induction entries generalizing table with
  | nil => simp
  | cons entry entries ih =>
      rw [List.foldl_cons, ih, find?_insert h, List.reverse_cons, List.find?_append, Option.map_or,
        Option.or_assoc]
      congr 1
      cases equal : same entry.1 key <;> simp [equal]

theorem find?_ofEntries (h : Respects hash same) (entries : List (κ × ν)) (key : κ)
    : (ofEntries hash same entries).find? hash same key
      = (entries.reverse.find? fun entry => same entry.1 key).map Prod.snd := by
  rw [ofEntries, find?_foldl_insert h]
  simp [find?, empty]

/-- Adding keys to a set leaves those that are equal to an earlier one out. By induction on the
keys, for a set that has the keys kept so far.
-/
theorem append_addKeys (h : Respects hash same) (kept : List κ) (set : HashTable κ Unit)
    (has : ∀ key, (set.find? hash same key).isSome = kept.any (same · key)) (keys : List κ)
    : kept ++ addKeys hash same set keys
      = keys.foldl (fun kept key => if kept.any (same · key) then kept else kept ++ [key]) kept := by
  induction keys generalizing kept set with
  | nil => simp [addKeys]
  | cons key keys ih =>
      rw [List.foldl_cons, ← has key, addKeys]
      cases found : set.find? hash same key with
      | some _ => exact ih kept set has
      | none =>
          have more (other : κ)
              : ((set.insert hash same key ()).2.find? hash same other).isSome
                = (kept ++ [key]).any (same · other) := by
            rw [find?_insert h, List.any_append, ← has other]
            cases equal : same key other <;> simp [equal]
          simpa using ih _ _ more

end Gcode.HashTable
