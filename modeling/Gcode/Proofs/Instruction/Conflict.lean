import Gcode.Instruction.Conflict
import Gcode.Proofs.Word.Equality
import Mathlib.Data.List.Pairwise

/-! What checking the instructions of a block finds.
The check passes exactly when the instructions agree in pairs, and otherwise it reports the first
conflict: the instructions before it agree, so the one it names with them is the only one.
-/

namespace Gcode.Instruction

variable {earlier before rest instructions : List Instruction} {first second : Instruction}
  {error : Error}

/-- Instructions that may be in one block: their words differ, and no group has both. -/
structure Agree (first second : Instruction) : Prop where
  words : Word.eq first.word second.word = false
  groups : ∀ group, first.modalGroup = some group → second.modalGroup ≠ some group

theorem Agree.symm (h : Agree first second) : Agree second first where
  words := by
    rw [← Bool.not_eq_true]
    intro same
    exact absurd (Word.eq_symm same) (by simp [h.words])
  groups group two one := h.groups group one two

instance : Std.Symm Agree :=
  ⟨fun _ _ => Agree.symm⟩

theorem pairwise_reverse : instructions.reverse.Pairwise Agree ↔ instructions.Pairwise Agree := by
  rw [List.pairwise_reverse]
  exact ⟨fun h => h.imp Agree.symm, fun h => h.imp Agree.symm⟩

/-- Of instructions that agree, only one has a word that is equal to a given one. -/
theorem unique_of_word {word : Word} (agree : before.Pairwise Agree) (left : first ∈ before)
    (right : second ∈ before) (h : Word.eq first.word word) (h' : Word.eq second.word word)
    : first = second := by
  by_contra other
  have apart := (agree.forall left right other).words
  have same := Word.eq_trans h (Word.eq_symm h')
  rw [apart] at same
  contradiction

/-- Of instructions that agree, only one is in a group. -/
theorem unique_of_group {group : String} (agree : before.Pairwise Agree) (left : first ∈ before)
    (right : second ∈ before) (h : first.modalGroup = some group)
    (h' : second.modalGroup = some group) : first = second := by
  by_contra other
  exact (agree.forall left right other).groups group h h'

-----------------------------------------------------------------------------------------
-- One instruction after others
-----------------------------------------------------------------------------------------

theorem conflict?_eq_none_iff
    : conflict? earlier second = none ↔ ∀ first ∈ earlier, Agree first second := by
  unfold conflict?
  cases found : earlier.find? fun first => first.word.eq second.word with
  | some first =>
      have same : Word.eq first.word second.word := by simpa using List.find?_some found
      have member := List.mem_of_find?_eq_some found
      simp only [reduceCtorEq, false_iff]
      intro all
      rw [(all first member).words] at same
      contradiction
  | none =>
      have words := List.find?_eq_none.1 found
      simp only [Bool.not_eq_true] at words
      constructor
      · intro none first member
        refine ⟨words first member, ?_⟩
        intro group one two
        simp only [two, Option.bind_some, Option.map_eq_none_iff, List.find?_eq_none] at none
        exact none first member (by simp [one])
      · intro all
        rw [Option.bind_eq_none_iff]
        intro group two
        rw [Option.map_eq_none_iff, List.find?_eq_none]
        intro first member
        simpa using fun one => (all first member).groups group one two

/-- What is wrong with an instruction after ones that it does not agree with: one of them has the
same word, or else one of them is in the same group.
-/
inductive Conflict (earlier : List Instruction) (second : Instruction) : Error → Prop
  | sameCode {first : Instruction} (member : first ∈ earlier) (same : Word.eq first.word second.word)
    : Conflict earlier second (.sameCodeInBlock first.toText second.toText)
  | sameGroup {first : Instruction} {group : String}
    (distinct : ∀ other ∈ earlier, Word.eq other.word second.word = false)
    (member : first ∈ earlier) (one : first.modalGroup = some group)
    (two : second.modalGroup = some group)
    : Conflict earlier second (.sameModalGroupInBlock group first.toText second.toText)

theorem conflict_of_conflict? (h : conflict? earlier second = some error)
    : Conflict earlier second error := by
  unfold conflict? at h
  split at h
  · rename_i first found
    cases h
    exact .sameCode (List.mem_of_find?_eq_some found) (by simpa using List.find?_some found)
  · rename_i none
    obtain ⟨group, two, h⟩ := Option.bind_eq_some_iff.1 h
    obtain ⟨first, found, rfl⟩ := Option.map_eq_some_iff.1 h
    refine .sameGroup ?_ (List.mem_of_find?_eq_some found) ?_ two
    · simpa using List.find?_eq_none.1 none
    · simpa using List.find?_some found

/-- The order of the earlier instructions plays no part. -/
theorem Conflict.reverse (h : Conflict earlier second error)
    : Conflict earlier.reverse second error := by
  cases h with
  | sameCode member same => exact .sameCode (List.mem_reverse.2 member) same
  | sameGroup distinct member one two =>
      exact .sameGroup (fun other inside => distinct other (List.mem_reverse.1 inside))
        (List.mem_reverse.2 member) one two

/-- After instructions that agree there is only one thing to report. -/
theorem Conflict.conflict? (h : Conflict earlier second error) (agree : earlier.Pairwise Agree)
    : conflict? earlier second = some error := by
  cases found : Instruction.conflict? earlier second with
  | none =>
      have all := conflict?_eq_none_iff.1 found
      cases h with
      | sameCode member same =>
          rw [(all _ member).words] at same
          contradiction
      | sameGroup _ member one two => exact absurd two ((all _ member).groups _ one)
  | some other =>
      congr 1
      cases h with
      | sameCode member same =>
          cases conflict_of_conflict? found with
          | sameCode member' same' => rw [unique_of_word agree member member' same same']
          | sameGroup distinct =>
              rw [distinct _ member] at same
              contradiction
      | sameGroup distinct member one two =>
          cases conflict_of_conflict? found with
          | sameCode member' same =>
              rw [distinct _ member'] at same
              contradiction
          | sameGroup _ member' one' two' =>
              obtain rfl := Option.some.inj (two.symm.trans two')
              rw [unique_of_group agree member member' one one']

-----------------------------------------------------------------------------------------
-- All instructions of a block
-----------------------------------------------------------------------------------------

/-- The instructions that the check has passed agree, by induction on those still to be checked. -/
theorem verifyAfter_eq_ok_iff (agree : earlier.Pairwise Agree)
    : verifyAfter earlier rest = .ok () ↔ (rest.reverse ++ earlier).Pairwise Agree := by
  induction rest generalizing earlier with
  | nil => simpa [verifyAfter] using agree
  | cons second rest ih =>
      have shift : (second :: rest).reverse ++ earlier = rest.reverse ++ second :: earlier := by simp
      rw [verifyAfter, shift]
      cases found : conflict? earlier second with
      | none =>
          have all := conflict?_eq_none_iff.1 found
          exact ih (List.pairwise_cons.2 ⟨fun first member => (all first member).symm, agree⟩)
      | some error =>
          simp only [reduceCtorEq, false_iff]
          intro whole
          have all := (List.pairwise_cons.1 (List.pairwise_append.1 whole).2.1).1
          rw [conflict?_eq_none_iff.2 fun first member => (all first member).symm] at found
          contradiction

/-- The check passes exactly when the instructions agree in pairs. -/
theorem verify_eq_ok_iff : verify instructions = .ok () ↔ instructions.Pairwise Agree := by
  rw [verify, verifyAfter_eq_ok_iff .nil, List.append_nil, pairwise_reverse]

/-- The error of the first conflict among instructions: those before it agree. -/
def FirstConflict (instructions : List Instruction) (error : Error) : Prop :=
  ∃ before second after, instructions = before ++ second :: after
    ∧ before.Pairwise Agree ∧ Conflict before second error

theorem verifyAfter_append_conflict {after : List Instruction}
    (h : conflict? (before.reverse ++ earlier) second = some error)
    (passed : verifyAfter earlier before = .ok ())
    : verifyAfter earlier (before ++ second :: after) = .error error := by
  induction before generalizing earlier with
  | nil =>
      rw [List.nil_append, verifyAfter]
      rw [List.reverse_nil, List.nil_append] at h
      rw [h]
  | cons first before ih =>
      rw [List.cons_append, verifyAfter]
      rw [verifyAfter] at passed
      cases found : conflict? earlier first with
      | some other =>
          rw [found] at passed
          cases passed
      | none =>
          rw [found] at passed
          exact ih (by simpa using h) passed

theorem exists_conflict_of_verifyAfter (h : verifyAfter earlier rest = .error error)
    : ∃ before second after, rest = before ++ second :: after
        ∧ verifyAfter earlier before = .ok ()
        ∧ conflict? (before.reverse ++ earlier) second = some error := by
  induction rest generalizing earlier with
  | nil => cases h
  | cons second rest ih =>
      rw [verifyAfter] at h
      cases found : conflict? earlier second with
      | some other =>
          rw [found] at h
          cases h
          exact ⟨[], second, rest, rfl, rfl, found⟩
      | none =>
          rw [found] at h
          obtain ⟨before, other, after, rfl, passed, conflict⟩ := ih h
          refine ⟨second :: before, other, after, rfl, ?_, by simpa using conflict⟩
          rw [verifyAfter, found]
          exact passed

/-- The check fails exactly with the first conflict. -/
theorem verify_eq_error_iff
    : verify instructions = .error error ↔ FirstConflict instructions error := by
  constructor
  · intro h
    obtain ⟨before, second, after, rfl, passed, conflict⟩ := exists_conflict_of_verifyAfter h
    refine ⟨before, second, after, rfl, verify_eq_ok_iff.1 passed, ?_⟩
    rw [List.append_nil] at conflict
    simpa using (conflict_of_conflict? conflict).reverse
  · intro h
    obtain ⟨before, second, after, rfl, agree, conflict⟩ := h
    refine verifyAfter_append_conflict ?_ (verify_eq_ok_iff.2 agree)
    rw [List.append_nil]
    exact conflict.reverse.conflict? (pairwise_reverse.2 agree)

end Gcode.Instruction
