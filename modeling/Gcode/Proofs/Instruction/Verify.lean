import Gcode.Instruction.Tables
import Gcode.Proofs.HashTable
import Gcode.Proofs.Instruction.Conflict
import Mathlib.Data.Nat.Find
import Mathlib.Order.Bounds.Basic

/-! The check of a block's instructions, by their places.
The check passes when no two places are in conflict. Otherwise it reports the least place that is in
conflict with an earlier one, together with the only earlier place that has the same word or, when
none has it, the same group. One pass with hash tables does the same, whatever the hashes.
-/

namespace Gcode

namespace Instruction

variable {instructions earlier rest : List Instruction} {first second : Instruction}
  {hashing : Hashing} {words : HashTable Word Instruction} {groups : HashTable String Instruction}

/-- The entries of instructions in the table of words. -/
def byWord (instructions : List Instruction) : List (Word × Instruction) :=
  instructions.map fun instruction => (instruction.word, instruction)

/-- The entries of instructions in the table of groups; some instructions have no group. -/
def byGroup (instructions : List Instruction) : List (String × Instruction) :=
  instructions.filterMap fun instruction => instruction.modalGroup.map (·, instruction)

theorem find?_byWord (word : Word)
    : ((byWord earlier).find? fun entry => entry.1.eq word).map Prod.snd
      = earlier.find? fun first => first.word.eq word := by
  rw [byWord, List.find?_map, Option.map_map]
  exact Option.map_id_apply

theorem find?_byGroup (group : String)
    : ((byGroup earlier).find? fun entry => entry.1 == group).map Prod.snd
      = earlier.find? fun first => first.modalGroup == some group := by
  induction earlier with
  | nil => rfl
  | cons first earlier ih =>
      cases own : first.modalGroup with
      | none => simpa [byGroup, own] using ih
      | some name =>
          by_cases same : name = group
          · simp [byGroup, own, same]
          · simpa [byGroup, own, same] using ih

/-- The pass with tables that hold the instructions so far goes on as the check does, by induction
on those still to be checked.
-/
theorem verifyWith_eq_verifyAfter
    (held : words.Holds (hashing.digest ·.digest) (byWord earlier))
    (grouped : groups.Holds hashing.group (byGroup earlier))
    : verifyWith hashing words groups rest = verifyAfter earlier rest := by
  induction rest generalizing words groups earlier with
  | nil => rfl
  | cons instruction rest ih =>
      have hashed (other : Word) (same : other.eq instruction.word)
          : hashing.digest other.digest = hashing.digest instruction.word.digest :=
        congrArg _ (Word.digest_eq_of_eq same)
      rw [verifyWith, verifyAfter, conflict?]
      cases sameWord : earlier.find? fun first => first.word.eq instruction.word with
      | some first =>
          obtain ⟨next, inserted⟩ :=
            held.insert_of_found hashed ((find?_byWord _).trans sameWord) instruction
          rw [inserted]
      | none =>
          obtain ⟨next, inserted, held⟩ :=
            held.insert_of_absent ((find?_byWord _).trans sameWord) instruction
          rw [inserted]
          dsimp only
          cases own : instruction.modalGroup with
          | none =>
              refine ih held ?_
              rwa [byGroup, List.filterMap_cons_none (by simp [own])]
          | some group =>
              have more : byGroup (instruction :: earlier) = (group, instruction) :: byGroup earlier :=
                List.filterMap_cons_some (by simp [own])
              rw [Option.bind_some]
              dsimp only
              cases sameGroup : earlier.find? fun first => first.modalGroup == some group with
              | some first =>
                  have hashed (other : String) (same : other == group)
                      : hashing.group other = hashing.group group := by
                    rw [eq_of_beq same]
                  obtain ⟨next, inserted⟩ :=
                    grouped.insert_of_found hashed ((find?_byGroup group).trans sameGroup) instruction
                  rw [inserted]
                  rfl
              | none =>
                  obtain ⟨next, inserted, grouped⟩ :=
                    grouped.insert_of_absent ((find?_byGroup group).trans sameGroup) instruction
                  rw [inserted]
                  exact ih held (more ▸ grouped)

theorem verifyByTables_eq_verify (hashing : Hashing) (instructions : List Instruction)
    : verifyByTables hashing instructions = verify instructions :=
  verifyWith_eq_verifyAfter HashTable.holds_empty HashTable.holds_empty

-----------------------------------------------------------------------------------------
-- Places
-----------------------------------------------------------------------------------------

section Places

variable {i k : Nat} {group : String} {error : Error}

/-- Instructions with equal words stand at two places. -/
def SameWordAt (instructions : List Instruction) (i k : Nat) : Prop :=
  ∃ first second, instructions[i]? = some first ∧ instructions[k]? = some second
    ∧ Word.eq first.word second.word

/-- Instructions of a group stand at two places. -/
def SameGroupAt (instructions : List Instruction) (group : String) (i k : Nat) : Prop :=
  ∃ first second, instructions[i]? = some first ∧ instructions[k]? = some second
    ∧ first.modalGroup = some group ∧ second.modalGroup = some group

/-- Two places are in conflict when they have equal words or one group. -/
def ConflictAt (instructions : List Instruction) (i k : Nat) : Prop :=
  SameWordAt instructions i k ∨ ∃ group, SameGroupAt instructions group i k

/-- A place that is in conflict with an earlier one. -/
def RefusedAt (instructions : List Instruction) (k : Nat) : Prop :=
  ∃ i < k, ConflictAt instructions i k

/-- What is reported at a place: the only earlier one with an equal word, and when there is none, a
group with the only earlier place that has it.
-/
inductive ReportAt (instructions : List Instruction) (k : Nat) : Error → Prop
  | sameCode {i : Nat} {first second : Instruction} (before : i < k)
    (one : instructions[i]? = some first) (two : instructions[k]? = some second)
    (same : Word.eq first.word second.word)
    (only : ∀ j < k, SameWordAt instructions j k → j = i)
    : ReportAt instructions k (.sameCodeInBlock first.toText second.toText)
  | sameGroup {i : Nat} {first second : Instruction} {group : String}
    (distinct : ∀ j < k, ¬ SameWordAt instructions j k) (before : i < k)
    (one : instructions[i]? = some first) (two : instructions[k]? = some second)
    (left : first.modalGroup = some group) (right : second.modalGroup = some group)
    (only : ∀ j < k, SameGroupAt instructions group j k → j = i)
    : ReportAt instructions k (.sameModalGroupInBlock group first.toText second.toText)

variable {j : Nat}

theorem SameWordAt.symm (h : SameWordAt instructions i k) : SameWordAt instructions k i := by
  obtain ⟨first, second, one, two, same⟩ := h
  exact ⟨second, first, two, one, Word.eq_symm same⟩

theorem SameWordAt.of_common (h : SameWordAt instructions i k) (h' : SameWordAt instructions j k)
    : SameWordAt instructions i j := by
  obtain ⟨first, last, one, two, same⟩ := h
  obtain ⟨second, last', one', two', same'⟩ := h'
  obtain rfl := Option.some.inj (two.symm.trans two')
  exact ⟨first, second, one, one', Word.eq_trans same (Word.eq_symm same')⟩

theorem SameGroupAt.symm (h : SameGroupAt instructions group i k)
    : SameGroupAt instructions group k i := by
  obtain ⟨first, second, one, two, left, right⟩ := h
  exact ⟨second, first, two, one, right, left⟩

theorem SameGroupAt.of_common (h : SameGroupAt instructions group i k)
    (h' : SameGroupAt instructions group j k) : SameGroupAt instructions group i j := by
  obtain ⟨first, _, one, _, left, _⟩ := h
  obtain ⟨second, _, one', _, left', _⟩ := h'
  exact ⟨first, second, one, one', left, left'⟩

theorem ConflictAt.symm (h : ConflictAt instructions i k) : ConflictAt instructions k i := by
  rcases h with same | ⟨group, same⟩
  · exact .inl same.symm
  · exact .inr ⟨group, same.symm⟩

/-- Places in conflict are those of instructions that do not agree. -/
theorem conflictAt_iff_not_agree (one : instructions[i]? = some first)
    (two : instructions[k]? = some second)
    : ConflictAt instructions i k ↔ ¬ Agree first second := by
  have words : SameWordAt instructions i k ↔ Word.eq first.word second.word := by
    simp [SameWordAt, one, two]
  have groups (group : String) : SameGroupAt instructions group i k
      ↔ first.modalGroup = some group ∧ second.modalGroup = some group := by
    simp [SameGroupAt, one, two]
  have agree : Agree first second ↔ Word.eq first.word second.word = false
      ∧ ∀ group, first.modalGroup = some group → second.modalGroup ≠ some group :=
    ⟨fun h => ⟨h.words, h.groups⟩, fun h => ⟨h.1, h.2⟩⟩
  simp only [ConflictAt, words, groups, agree, not_and_or, Bool.not_eq_false, not_forall,
    not_not, exists_prop, ne_eq]

theorem pairwise_agree_iff
    : instructions.Pairwise Agree ↔ ∀ i k, i < k → ¬ ConflictAt instructions i k := by
  rw [List.pairwise_iff_getElem]
  constructor
  · intro agree i k before conflict
    have ⟨first, second, one, two⟩ : ∃ first second,
        instructions[i]? = some first ∧ instructions[k]? = some second := by
      rcases conflict with ⟨first, second, one, two, _⟩ | ⟨_, first, second, one, two, _⟩ <;>
        exact ⟨first, second, one, two⟩
    refine (conflictAt_iff_not_agree one two).1 conflict ?_
    obtain ⟨inside, rfl⟩ := List.getElem?_eq_some_iff.1 one
    obtain ⟨inside', rfl⟩ := List.getElem?_eq_some_iff.1 two
    exact agree i k inside inside' before
  · intro apart i k inside inside' before
    by_contra other
    exact apart i k before ((conflictAt_iff_not_agree (List.getElem?_eq_getElem inside)
      (List.getElem?_eq_getElem inside')).2 other)

/-- The check passes exactly when no two places are in conflict. -/
theorem verify_eq_ok_iff_forall_places
    : verify instructions = .ok () ↔ ∀ i k, i ≠ k → ¬ ConflictAt instructions i k := by
  rw [verify_eq_ok_iff, pairwise_agree_iff]
  constructor
  · intro apart i k other conflict
    rcases Nat.lt_or_gt_of_ne other with before | after
    · exact apart i k before conflict
    · exact apart k i after conflict.symm
  · intro apart i k before
    exact apart i k (Nat.ne_of_lt before)

/-- Before the first place that is refused, no two places are in conflict. -/
theorem eq_of_conflictAt (first : ∀ i < k, ¬ RefusedAt instructions i) (left : i < k)
    (right : j < k) (conflict : ConflictAt instructions i j) : i = j := by
  rcases Nat.lt_trichotomy i j with before | same | after
  · exact absurd ⟨i, before, conflict⟩ (first j right)
  · exact same
  · exact absurd ⟨j, after, conflict.symm⟩ (first i left)

/-- At the first place that is refused there is something to report. -/
theorem exists_reportAt (first : ∀ i < k, ¬ RefusedAt instructions i)
    (refused : RefusedAt instructions k) : ∃ error, ReportAt instructions k error := by
  by_cases words : ∃ i < k, SameWordAt instructions i k
  · obtain ⟨i, before, same⟩ := words
    have ⟨one, two, left, right, equal⟩ := same
    refine ⟨_, .sameCode before left right equal fun j before' same' => ?_⟩
    exact eq_of_conflictAt first before' before (.inl (same'.of_common same))
  · have distinct : ∀ i < k, ¬ SameWordAt instructions i k := by simpa using words
    obtain ⟨i, before, word | ⟨group, same⟩⟩ := refused
    · exact absurd word (distinct i before)
    · have ⟨one, two, left, right, ours, theirs⟩ := same
      refine ⟨_, .sameGroup distinct before left right ours theirs fun j before' same' => ?_⟩
      exact eq_of_conflictAt first before' before (.inr ⟨group, same'.of_common same⟩)

theorem getElem?_take_eq_some
    : (instructions.take k)[i]? = some first ↔ i < k ∧ instructions[i]? = some first := by
  rw [List.getElem?_take]
  split <;> simp_all

theorem ConflictAt.of_take (h : ConflictAt (instructions.take k) i j)
    : j < k ∧ ConflictAt instructions i j := by
  simp only [ConflictAt, SameWordAt, SameGroupAt, getElem?_take_eq_some] at h ⊢
  rcases h with ⟨first, second, one, two, same⟩ | ⟨group, first, second, one, two, same⟩
  · exact ⟨two.1, .inl ⟨first, second, one.2, two.2, same⟩⟩
  · exact ⟨two.1, .inr ⟨group, first, second, one.2, two.2, same⟩⟩

/-- What is reported at the first place that is refused is what the check fails with: the
instructions before it agree, so it is the first conflict.
-/
theorem ReportAt.verify (first : ∀ i < k, ¬ RefusedAt instructions i)
    (report : ReportAt instructions k error) : verify instructions = .error error := by
  have agree : (instructions.take k).Pairwise Agree := by
    rw [pairwise_agree_iff]
    intro i j before conflict
    obtain ⟨inside, conflict⟩ := conflict.of_take
    exact first j inside ⟨i, before, conflict⟩
  have member {i : Nat} {one : Instruction} (before : i < k) (found : instructions[i]? = some one)
      : one ∈ instructions.take k :=
    List.mem_of_getElem? (getElem?_take_eq_some.2 ⟨before, found⟩)
  have split {second : Instruction} (found : instructions[k]? = some second)
      : instructions = instructions.take k ++ second :: instructions.drop (k + 1) := by
    obtain ⟨inside, rfl⟩ := List.getElem?_eq_some_iff.1 found
    rw [← List.drop_eq_getElem_cons inside, List.take_append_drop]
  rw [verify_eq_error_iff]
  cases report with
  | sameCode before one two same only =>
      exact ⟨_, _, _, split two, agree, .sameCode (member before one) same⟩
  | sameGroup distinct before one two left right only =>
      refine ⟨_, _, _, split two, agree, .sameGroup ?_ (member before one) left right⟩
      intro other inside
      obtain ⟨j, found⟩ := List.mem_iff_getElem?.1 inside
      obtain ⟨before, found⟩ := getElem?_take_eq_some.1 found
      rw [← Bool.not_eq_true]
      exact fun same => distinct j before ⟨other, _, found, two, same⟩

/-- What the check of instructions answers. It passes exactly when no two places are in conflict.
Otherwise it fails at the first place that is refused, with what is to be reported there. One pass
with hash tables answers the same.
-/
structure Verified (instructions : List Instruction) : Prop where
  passes : verify instructions = .ok () ↔ ∀ i k, i ≠ k → ¬ ConflictAt instructions i k
  refused
    : verify instructions ≠ .ok () → ∃ k, IsLeast { k | RefusedAt instructions k } k
  reports
    : ∀ k, IsLeast { k | RefusedAt instructions k } k
        → ∃ error, ReportAt instructions k error ∧ verify instructions = .error error
  tables : ∀ hashing, verifyByTables hashing instructions = verify instructions

/-- The check of instructions is exact. -/
theorem verify_exact (instructions : List Instruction) : Verified instructions where
  passes := verify_eq_ok_iff_forall_places
  refused fails := by
    have some : { k | RefusedAt instructions k }.Nonempty := by
      by_contra none
      refine fails (verify_eq_ok_iff.2 (pairwise_agree_iff.2 ?_))
      intro i k before conflict
      exact none ⟨k, i, before, conflict⟩
    classical
    exact ⟨Nat.find some, Nat.find_spec some, fun _ => Nat.find_min' some⟩
  reports k least := by
    have first : ∀ i < k, ¬ RefusedAt instructions i :=
      fun i before refused => absurd (least.2 refused) (Nat.not_le.2 before)
    obtain ⟨error, report⟩ := exists_reportAt first least.1
    exact ⟨error, report, report.verify first⟩
  tables hashing := verifyByTables_eq_verify hashing instructions

end Places
end Instruction
end Gcode
