import Gcode.Proofs.Dialect.Rules

/-! The ways to a dialect, and what holds of the dialects at their ends.
Rules are checked where a dialect is made of them. A file puts rules over those of another dialect
and has all of them checked again, and a registry holds only dialects that were offered to it. So
every dialect has letters, and each of their rules can write its values.
-/

namespace Gcode

-----------------------------------------------------------------------------------------
-- Consistent dialects
-----------------------------------------------------------------------------------------

namespace Dialect

variable {name : String} {description : Option String} {rules : List (Char × Rule)}
  {dialect : Dialect}

/-- There are letters, all of them from A to Z, and the rule of each can write the values of its kind.
-/
structure Consistent (dialect : Dialect) : Prop where
  some : dialect.letters ≠ []
  letters : ∀ letter ∈ dialect.letters, 'A' ≤ letter.char ∧ letter.char ≤ 'Z'
  accepts : dialect.rules.Accepts

theorem consistent_of_ofRules (h : ofRules name description rules = .ok dialect)
    : dialect.Consistent where
  some := by
    obtain ⟨some, all, rfl⟩ := ofRules_eq_ok_iff.1 h
    obtain ⟨letter, slot⟩ := exists_lastRule? some all
    exact List.ne_nil_of_mem (RuleTable.mem_letters.2 slot)
  letters letter _ := of_decide_eq_true letter.isUpper
  accepts := accepts_of_ofRules h

/-- All rules of a dialect with a file are checked, those of the dialect that it starts from too. -/
theorem consistent_of_toDialect {file : DialectFile} {base : Option Dialect}
    (h : file.toDialect base = .ok dialect) : dialect.Consistent := by
  obtain ⟨table, _, built⟩ := bind_eq_ok_iff.1 h
  exact consistent_of_ofRules built

theorem consistent_of_read {text : List Char} (h : Dialect.read text = .ok dialect)
    : dialect.Consistent := by
  rw [Dialect.read] at h
  split at h
  · contradiction
  · split at h
    · contradiction
    · exact consistent_of_toDialect h

end Dialect

-----------------------------------------------------------------------------------------
-- Registries
-----------------------------------------------------------------------------------------

namespace Registry

variable {registry : Registry} {files : Files} {priority : DialectPriority} {path name : String}
  {paths : List String} {call : RegistryCall} {calls : List RegistryCall} {dialect : Dialect}
  {offer : RegisteredDialect}

theorem consistent_of_read {text : List Char} {path : Option String}
    (h : registry.read text path = .ok dialect) : dialect.Consistent := by
  rw [Registry.read] at h
  split at h
  · contradiction
  · obtain ⟨base, _, built⟩ := bind_eq_ok_iff.1 (mapError_eq_ok_iff.1 h)
    exact Dialect.consistent_of_toDialect built

theorem consistent_of_registrationOf (h : registry.registrationOf files priority path = .ok offer)
    : offer.dialect.Consistent := by
  obtain ⟨dialect, found, made⟩ := bind_eq_ok_iff.1 h
  cases made
  rw [readFile] at found
  split at found
  · contradiction
  · exact consistent_of_read (mapError_eq_ok_iff.1 found)

/-- What files offer was read from one of them, with what the registry held when its turn came. -/
theorem exists_registrationOf (member : offer ∈ offersOfFiles files priority registry paths)
    : ∃ between : Registry, ∃ path ∈ paths,
        between.registrationOf files priority path = .ok offer := by
  induction paths generalizing registry with
  | nil => contradiction
  | cons path paths ih =>
      have later {registry : Registry}
          (member : offer ∈ offersOfFiles files priority registry paths)
          : ∃ between : Registry, ∃ other ∈ path :: paths,
              between.registrationOf files priority other = .ok offer := by
        obtain ⟨between, other, listed, read⟩ := ih member
        exact ⟨between, other, List.mem_cons_of_mem _ listed, read⟩
      rw [offersOfFiles] at member
      split at member
      · rename_i new read
        rcases List.mem_cons.1 member with rfl | member
        · exact ⟨registry, path, List.mem_cons_self, read⟩
        · exact later member
      · exact later member

theorem consistent_of_mem_offersOfFiles
    (member : offer ∈ offersOfFiles files priority registry paths)
    : offer.dialect.Consistent := by
  obtain ⟨between, path, _, read⟩ := exists_registrationOf member
  exact consistent_of_registrationOf read

/-- A call offers consistent dialects, whatever the registry holds, if one that it is given is. -/
theorem consistent_of_mem_offersOf
    (given : ∀ other priority, call = .register other priority → other.Consistent)
    (member : offer ∈ registry.offersOf call) : offer.dialect.Consistent := by
  cases call with
  | register dialect priority =>
      obtain rfl := List.mem_singleton.1 member
      exact given dialect priority rfl
  | loadFile files path priority => exact consistent_of_mem_offersOfFiles member
  | loadDirectory files directory priority =>
      rw [offersOf] at member
      split at member
      · exact consistent_of_mem_offersOfFiles member
      · contradiction
  | setDefault name => contradiction

/-- By induction on the calls. -/
theorem consistent_of_mem_offers
    (given : ∀ other priority, .register other priority ∈ calls → other.Consistent)
    (member : offer ∈ registry.offers calls) : offer.dialect.Consistent := by
  induction calls generalizing registry with
  | nil => contradiction
  | cons call calls ih =>
      rw [offers] at member
      rcases List.mem_append.1 member with member | member
      · refine consistent_of_mem_offersOf (fun other priority same => ?_) member
        exact given other priority (same ▸ List.mem_cons_self)
      · exact ih (fun other priority listed => given other priority (.tail _ listed)) member

theorem consistent_of_mem_start {start : Start} (member : offer ∈ start.offers)
    : offer.dialect.Consistent := by
  cases start with
  | empty => contradiction
  | builtIn =>
      obtain rfl := List.mem_singleton.1 member
      exact Dialect.consistent_of_ofRules Dialect.ofRules_linuxCnc

/-- A registry only holds dialects that were offered to it. -/
theorem consistent_of_resolve {start : Start}
    (given : ∀ other priority, .register other priority ∈ calls → other.Consistent)
    (h : (start.registry.run calls).resolve name = .ok dialect) : dialect.Consistent := by
  rw [resolve] at h
  split at h
  · rename_i held found
    cases h
    obtain ⟨_, before, after, split, _⟩ := ((start.reflects.run calls).held name held).1 found
    have member : held ∈ start.offers ++ start.registry.offers calls := by
      rw [split]
      exact List.mem_append_right _ List.mem_cons_self
    rcases List.mem_append.1 member with member | member
    · exact consistent_of_mem_start member
    · exact consistent_of_mem_offers given member
  · contradiction

end Registry

-----------------------------------------------------------------------------------------
-- Ways to a dialect
-----------------------------------------------------------------------------------------

/-- A dialect is made of rules, is read from a text, is that of a file, which may start from another
dialect that was obtained, or it comes from a registry after any calls: the registry holds it under a
name, or reads it from a text. The dialects that the calls register were obtained before.
-/
inductive Dialect.Obtained : Dialect → Prop where
  | made {name : String} {description : Option String} {rules : List (Char × Rule)}
    {dialect : Dialect} (accepted : ofRules name description rules = .ok dialect) : Obtained dialect
  | read {text : List Char} {dialect : Dialect} (parsed : Dialect.read text = .ok dialect)
    : Obtained dialect
  | alone {file : DialectFile} {dialect : Dialect} (defined : file.toDialect none = .ok dialect)
    : Obtained dialect
  | extended {file : DialectFile} {base dialect : Dialect} (start : Obtained base)
    (defined : file.toDialect (some base) = .ok dialect) : Obtained dialect
  | held {start : Registry.Start} {calls : List RegistryCall} {name : String} {dialect : Dialect}
    (given : ∀ other priority, .register other priority ∈ calls → Obtained other)
    (found : (start.registry.run calls).resolve name = .ok dialect) : Obtained dialect
  | readBy {start : Registry.Start} {calls : List RegistryCall} {text : List Char}
    {path : Option String} {dialect : Dialect}
    (given : ∀ other priority, .register other priority ∈ calls → Obtained other)
    (parsed : (start.registry.run calls).read text path = .ok dialect) : Obtained dialect

/-- Every way to a dialect leads to a consistent one. By induction on the way: a registry passes on
what it was given.
-/
theorem Dialect.Obtained.consistent {dialect : Dialect} (h : dialect.Obtained)
    : dialect.Consistent := by
  induction h with
  | made accepted => exact consistent_of_ofRules accepted
  | read parsed => exact consistent_of_read parsed
  | alone defined => exact consistent_of_toDialect defined
  | extended _ defined _ => exact consistent_of_toDialect defined
  | held _ found consistent => exact Registry.consistent_of_resolve consistent found
  | readBy _ parsed _ => exact Registry.consistent_of_read parsed

end Gcode
