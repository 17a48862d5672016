import Gcode.Proofs.Instruction.ModalTable
import Gcode.Proofs.LinuxCnc.Reread
import Gcode.Proofs.Number.Tenths
import Gcode.Proofs.Word.Construction

/-! Modal groups of the codes of the built-in dialect.
Codes are looked up by their tenths as 64-bit integers. For the codes that a table can have and
the codes that can be read, however large, these are the same exactly if the codes are equal.
-/

namespace Gcode

open Number

/-- An entry for the code of a word: it has its letter in either case, and an equal number. -/
structure ModalTable.Entry.Names (entry : ModalTable.Entry) (word : Word) : Prop where
  letter : entry.letter.toUpper = word.letter.char
  code : ∃ value, word.value = .real value ∧ entry.code.eq value

namespace LinuxCnc

variable {xyDecimals : Precision} {verify : Bool} {text : List Char} {word : Word}

theorem class_eq_code {letter : Letter} (code : letter.char ∈ ['G', 'H', 'M', 'S'])
    : ValueClass.ofLetter letter = .code := by
  simp only [List.mem_cons, List.not_mem_nil, or_false] at code
  rcases code with same | same | same | same <;> rw [ValueClass.ofLetter, same] <;> rfl

/-- A code that was read is the number nearest to a whole number of tenths. -/
theorem exists_isCode_of_mem_scanWords
    (member : word ∈ (scanWords { xyDecimals, verify } text).1)
    (code : word.letter.char ∈ ['G', 'H', 'M', 'S'])
    : ∃ value, word.value = .real value ∧ value.IsCode := by
  obtain ⟨piece, after, rfl, reads⟩ := exists_piece_of_mem_scanWords member
  obtain ⟨-, longest, value⟩ := piece_of_linuxCnc reads
  rw [class_eq_code code] at longest value
  have holds : ValueClass.code.Holds piece.word.value := holds_of_numeric (by simp) longest value
  generalize piece.word.value = held at holds ⊢
  cases holds with
  | code tenths => exact ⟨_, rfl, tenths⟩

/-- An entry is stored under the letter and the tenths of a word exactly if it is for its code. -/
theorem slot_eq_iff {entry : ModalTable.Entry} {value : Binary64} (held : word.value = .real value)
    (short : entry.code.IsTenths) (read : value.IsCode)
    : entry.slot.1 = (word.letter.char, value.tenths) ↔ entry.Names word := by
  have key : entry.slot.1 = (entry.letter.toUpper, entry.code.tenths) := rfl
  rw [key, Prod.mk.injEq, Binary64.tenths_eq_iff short read]
  constructor
  · exact fun both => ⟨both.1, value, held, both.2⟩
  · intro names
    obtain ⟨letter, other, same, equal⟩ := names
    obtain rfl : value = other := Value.real.inj (held.symm.trans same)
    exact ⟨letter, equal⟩

theorem isTenths_of_mem_entries {groupings : List ModalTable.Grouping} {entry : ModalTable.Entry}
    (codes : ∀ grouping ∈ groupings, ∀ code ∈ grouping.codes, code.IsTenths)
    (member : entry ∈ ModalTable.entries groupings) : entry.code.IsTenths := by
  obtain ⟨grouping, inside, member⟩ := List.mem_flatMap.1 member
  obtain ⟨code, listed, rfl⟩ := List.mem_map.1 member
  exact codes grouping inside code listed

/-- The group of a code that was read is that of the last entry for its letter and number, and it
has none if there is no such entry.
-/
theorem groupOf_read (letters : List Char) (groupings : List ModalTable.Grouping)
    (xyDecimals : Precision) (verify : Bool) (text : List Char) (word : Word)
    (codes : ∀ grouping ∈ groupings, ∀ code ∈ grouping.codes, code.IsTenths)
    (member : word ∈ (scanWords { xyDecimals, verify } text).1)
    (code : word.letter.char ∈ ['G', 'H', 'M', 'S'])
    : (∀ group, (ModalTable.ofGroupings letters groupings).groupOf word = some group
        ↔ ∃ before entry after, ModalTable.entries groupings = before ++ entry :: after
            ∧ entry.Names word ∧ entry.group = group ∧ ∀ later ∈ after, ¬ later.Names word)
      ∧ ((ModalTable.ofGroupings letters groupings).groupOf word = none
        ↔ ∀ entry ∈ ModalTable.entries groupings, ¬ entry.Names word) := by
  obtain ⟨value, held, read⟩ := exists_isCode_of_mem_scanWords member code
  have slots (entry : ModalTable.Entry) (inside : entry ∈ ModalTable.entries groupings)
      : entry.slot.1 = (word.letter.char, value.tenths) ↔ entry.Names word :=
    slot_eq_iff held (isTenths_of_mem_entries codes inside) read
  have looked : (ModalTable.ofGroupings letters groupings).groupOf word
      = ((ModalTable.entries groupings).map ModalTable.Entry.slot).reverse.lookup
          (word.letter.char, value.tenths) := by
    rw [← ModalTable.groups_ofGroupings letters groupings, ModalTable.groupOf, held]
    rfl
  rw [looked]
  refine ⟨fun group => ?_, ?_⟩
  · rw [ModalTable.lookup_slots_eq_some_iff]
    constructor
    · rintro ⟨before, entry, after, split, slot, named, others⟩
      rw [split] at slots
      exact ⟨before, entry, after, split, (slots entry (by simp)).1 slot, named,
        fun later inside names => others later inside ((slots later (by simp [inside])).2 names)⟩
    · rintro ⟨before, entry, after, split, names, named, others⟩
      rw [split] at slots
      exact ⟨before, entry, after, split, (slots entry (by simp)).2 names, named,
        fun later inside slot => others later inside ((slots later (by simp [inside])).1 slot)⟩
  · rw [ModalTable.lookup_slots_eq_none_iff]
    exact forall₂_congr fun entry inside => not_congr (slots entry inside)

/-- Two groupings for codes of the letter `G`; the code 38.2 is in both of them. -/
def probings : List ModalTable.Grouping :=
  [⟨'G', [Numeral.toBinary64 false ⟨382, -1⟩, Numeral.toBinary64 false ⟨383, -1⟩], "motion"⟩,
    ⟨'g', [Numeral.toBinary64 false ⟨382, -1⟩], "probing"⟩]

/-- A code that is in two groups belongs to the later one. -/
theorem groupOf_read_probing
    : ∃ word ∈ (scanWords {} "g 038.2".toList).1,
        (ModalTable.ofGroupings ['G'] probings).groupOf word = some "probing" := by
  have found : (scanWords {} "g 038.2".toList).1.any fun word =>
      word.letter.char = 'G'
        ∧ word.value = .real (Numeral.toBinary64 false ⟨382, -1⟩) := by
    decide +kernel
  obtain ⟨word, member, both⟩ := List.any_eq_true.1 found
  obtain ⟨letter, value⟩ := of_decide_eq_true both
  have first : (Numeral.toBinary64 false ⟨382, -1⟩).IsTenths := ⟨false, 382, by decide, rfl⟩
  have second : (Numeral.toBinary64 false ⟨383, -1⟩).IsTenths := ⟨false, 383, by decide, rfl⟩
  have codes : ∀ grouping ∈ probings, ∀ code ∈ grouping.codes, code.IsTenths := by
    refine List.forall_mem_cons.2 ⟨?_, List.forall_mem_singleton.2 ?_⟩
    · exact List.forall_mem_cons.2 ⟨first, List.forall_mem_singleton.2 second⟩
    · exact List.forall_mem_singleton.2 first
  refine ⟨word, member, ?_⟩
  obtain ⟨found, -⟩ := groupOf_read ['G'] probings .standard true "g 038.2".toList word codes member
    (by simp [letter])
  refine (found "probing").2 ⟨_, ⟨'g', Numeral.toBinary64 false ⟨382, -1⟩, "probing"⟩, [], rfl,
    ⟨by rw [letter]; rfl, _, value, ?_⟩, rfl, List.forall_mem_nil _⟩
  decide +kernel

end LinuxCnc
end Gcode
