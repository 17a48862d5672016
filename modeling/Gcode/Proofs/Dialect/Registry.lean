import Gcode.Dialect.Registry

/-! What a registry holds of the dialects that are offered to it.
Under each name it holds the last one among those of highest priority, so names stay and what is
under them never loses priority.
-/

namespace Gcode.Registry

variable {registry : Registry} {name : String} {held new : RegisteredDialect}
  {offered : List RegisteredDialect}

-----------------------------------------------------------------------------------------
-- One dialect
-----------------------------------------------------------------------------------------

theorem get?_store
    : (registry.store new).get? name
      = if new.dialect.name = name then some new else registry.get? name := by
  unfold get? store
  split
  · rename_i same
    simp [same]
  · rename_i other
    rw [List.find?_cons_of_neg (by simpa using other), List.find?_filter]
    congr 1
    funext old
    by_cases found : old.dialect.name = name
    · simpa [found] using other
    · simp [found]

theorem admits_iff
    : registry.admits new
      ↔ ∀ old, registry.get? new.dialect.name = some old
          → old.priority.rank ≤ new.priority.rank := by
  rw [admits]
  cases registry.get? new.dialect.name <;> simp

/-- A dialect that is offered only counts under its name, and there only if it is admitted. -/
theorem get?_insert
    : (registry.insert new).get? name
      = if new.dialect.name = name ∧ registry.admits new then some new else registry.get? name := by
  unfold insert
  by_cases admitted : registry.admits new
  · simp only [admitted, if_true, and_true]
    exact get?_store
  · simp [admitted]

/-- An offer is answered with whether it is what the registry holds afterwards. -/
theorem admits_iff_get?_insert
    : registry.admits new ↔ (registry.insert new).get? new.dialect.name = some new := by
  rw [get?_insert]
  constructor
  · intro admitted
    rw [if_pos ⟨rfl, admitted⟩]
  · intro found
    by_cases admitted : registry.admits new
    · exact admitted
    · rw [if_neg fun both => admitted both.2] at found
      refine admits_iff.2 fun old same => ?_
      rw [found] at same
      cases same
      exact Nat.le_refl _

theorem defaultName_insert : (registry.insert new).defaultName = registry.defaultName := by
  unfold insert
  split <;> rfl

-----------------------------------------------------------------------------------------
-- All dialects that were offered
-----------------------------------------------------------------------------------------

/-- What counts under a name among dialects that were offered: no other one of the name has higher
priority, and none that came later has the same.
-/
def Governs (offered : List RegisteredDialect) (name : String) (held : RegisteredDialect) : Prop :=
  held.dialect.name = name
  ∧ ∃ before after, offered = before ++ held :: after
      ∧ (∀ other ∈ before, other.dialect.name = name
          → other.priority.rank ≤ held.priority.rank)
      ∧ ∀ other ∈ after, other.dialect.name = name → other.priority.rank < held.priority.rank

theorem Governs.rank_le (h : Governs offered name held)
    : ∀ other ∈ offered, other.dialect.name = name → other.priority.rank ≤ held.priority.rank := by
  obtain ⟨_, before, after, rfl, earlier, later⟩ := h
  intro other member same
  rcases List.mem_append.1 member with member | member
  · exact earlier other member same
  rcases List.mem_cons.1 member with rfl | member
  · exact Nat.le_refl _
  · exact Nat.le_of_lt (later other member same)

/-- With one more offer, either that one counts, as no other has higher priority, or what counted
before, if it has higher priority than the offer.
-/
theorem governs_concat_iff
    : Governs (offered ++ [new]) name held
      ↔ (held = new ∧ new.dialect.name = name
            ∧ ∀ other ∈ offered, other.dialect.name = name
                → other.priority.rank ≤ new.priority.rank)
        ∨ (Governs offered name held
            ∧ (new.dialect.name = name → new.priority.rank < held.priority.rank)) := by
  constructor
  · intro given
    obtain ⟨same, before, after, split, earlier, later⟩ := given
    rcases List.eq_nil_or_concat after with rfl | ⟨after, last, rfl⟩
    · obtain ⟨rfl, last⟩ := List.append_inj' split rfl
      cases last
      exact .inl ⟨rfl, same, earlier⟩
    · rw [List.concat_eq_append, ← List.cons_append, ← List.append_assoc] at split
      obtain ⟨rfl, last⟩ := List.append_inj' split rfl
      cases last
      rw [List.concat_eq_append] at later
      refine .inr ⟨⟨same, before, after, rfl, earlier, ?_⟩, later new (by simp)⟩
      exact fun other member => later other (by simp [member])
  · intro given
    rcases given with ⟨rfl, same, earlier⟩ | ⟨⟨same, before, after, rfl, earlier, later⟩, last⟩
    · exact ⟨same, offered, [], rfl, earlier, List.forall_mem_nil _⟩
    · refine ⟨same, before, after ++ [new], by simp, earlier, ?_⟩
      rw [List.forall_mem_append, List.forall_mem_singleton]
      exact ⟨later, last⟩

/-- A registry shows what counts under every name among the dialects that were offered to it, and
has nothing under names that no dialect was offered with.
-/
structure Reflects (registry : Registry) (offered : List RegisteredDialect) : Prop where
  held : ∀ name held, registry.get? name = some held ↔ Governs offered name held
  absent : ∀ name, registry.get? name = none ↔ ∀ offer ∈ offered, offer.dialect.name ≠ name

theorem Reflects.congr {other : Registry} (h : registry.Reflects offered)
    (same : ∀ name, other.get? name = registry.get? name) : other.Reflects offered where
  held name held := by rw [same, h.held]
  absent name := by rw [same, h.absent]

/-- A registry admits a dialect when none of higher priority was offered under its name. -/
theorem Reflects.admits_iff (h : registry.Reflects offered)
    : registry.admits new
      ↔ ∀ other ∈ offered, other.dialect.name = new.dialect.name
          → other.priority.rank ≤ new.priority.rank := by
  rw [Registry.admits_iff]
  cases found : registry.get? new.dialect.name with
  | none =>
      have none := (h.absent _).1 found
      refine iff_of_true (by simp) ?_
      exact fun other member same => absurd same (none other member)
  | some old =>
      have governs := (h.held _ _).1 found
      constructor
      · intro admitted other member same
        exact Nat.le_trans (governs.rank_le other member same) (admitted old rfl)
      · intro all old' same
        cases same
        obtain ⟨same, before, after, rfl, _⟩ := governs
        exact all old (by simp) same

/-- One more offer keeps it so. By cases on whether the name is that of the offer and whether the
offer is admitted.
-/
theorem Reflects.insert (h : registry.Reflects offered)
    : (registry.insert new).Reflects (offered ++ [new]) where
  held name held := by
    rw [get?_insert, governs_concat_iff, ← h.held]
    by_cases same : new.dialect.name = name
    · subst same
      by_cases admitted : registry.admits new
      · rw [if_pos ⟨rfl, admitted⟩]
        have none : ¬ (registry.get? new.dialect.name = some held
            ∧ (new.dialect.name = new.dialect.name
              → new.priority.rank < held.priority.rank)) := fun ⟨found, higher⟩ =>
          Nat.not_lt.2 (Registry.admits_iff.1 admitted held found) (higher rfl)
        rw [or_iff_left none]
        constructor
        · intro found
          exact ⟨(Option.some.inj found).symm, rfl, h.admits_iff.1 admitted⟩
        · intro given
          obtain ⟨rfl, _⟩ := given
          rfl
      · rw [if_neg fun both => admitted both.2]
        have none : ¬ (held = new ∧ new.dialect.name = new.dialect.name
            ∧ ∀ other ∈ offered, other.dialect.name = new.dialect.name
                → other.priority.rank ≤ new.priority.rank) := fun ⟨_, _, all⟩ =>
          admitted (h.admits_iff.2 all)
        rw [or_iff_right none, and_iff_left_of_imp]
        intro found _
        refine Nat.lt_of_not_le fun le => admitted (Registry.admits_iff.2 fun old same => ?_)
        cases found.symm.trans same
        exact le
    · rw [if_neg fun both => same both.1]
      simp [same]
  absent name := by
    rw [get?_insert, List.forall_mem_append, List.forall_mem_singleton, ← h.absent]
    by_cases same : new.dialect.name = name
    · subst same
      simp only [true_and, ne_eq, not_true_eq_false, and_false, iff_false]
      split
      · simp
      · rename_i kept
        intro none
        exact kept (Registry.admits_iff.2 fun old found => by rw [none] at found; contradiction)
    · simp [same]

/-- Names stay, and what is under them never has lower priority than before. -/
def Grows (before after : Registry) : Prop :=
  ∀ name held, before.get? name = some held
    → ∃ later, after.get? name = some later ∧ held.priority.rank ≤ later.priority.rank

theorem Grows.refl (registry : Registry) : registry.Grows registry :=
  fun _ held found => ⟨held, found, Nat.le_refl _⟩

theorem Grows.trans {first second third : Registry} (h : first.Grows second)
    (h' : second.Grows third) : first.Grows third := by
  intro name held found
  obtain ⟨later, found, le⟩ := h name held found
  obtain ⟨last, found, le'⟩ := h' name later found
  exact ⟨last, found, Nat.le_trans le le'⟩

theorem grows_insert : registry.Grows (registry.insert new) := by
  intro name held found
  rw [get?_insert]
  split
  · rename_i both
    obtain ⟨rfl, admitted⟩ := both
    exact ⟨new, rfl, admits_iff.1 admitted held found⟩
  · exact ⟨held, found, Nat.le_refl _⟩

theorem grows_foldl (offered : List RegisteredDialect)
    : registry.Grows (offered.foldl insert registry) := by
  induction offered generalizing registry with
  | nil => exact .refl registry
  | cons new offered ih => exact grows_insert.trans ih

/-- All that was offered to a registry before is taken into account, offer by offer. -/
theorem Reflects.foldl (h : registry.Reflects offered) (more : List RegisteredDialect)
    : (more.foldl Registry.insert registry).Reflects (offered ++ more) := by
  induction more generalizing registry offered with
  | nil => rwa [List.append_nil]
  | cons new more ih =>
      rw [List.append_cons]
      exact ih h.insert

theorem reflects_empty : Registry.empty.Reflects [] where
  held name held := by
    refine iff_of_false (by simp [get?, empty]) ?_
    intro given
    obtain ⟨_, before, after, split, _⟩ := given
    simp at split
  absent name := by simp [get?, empty]

end Gcode.Registry
