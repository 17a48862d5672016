import Gcode.Instruction.ModalTable

/-! Tables of modal groups that are filled entry by entry.
The codes of each call go into the table one after another, so a table is known by the list of its
entries. Of the entries with the letter and the tenths of a word the last one counts.
-/

namespace Gcode

open Number

namespace ModalTable

/-- Codes of a letter that go into a group together; the letter is given in either case. -/
structure Grouping where
  letter : Char
  codes : List Binary64
  group : String

/-- The group of one code. -/
structure Entry where
  letter : Char
  code : Binary64
  group : String

/-- The codes of a grouping, each with its group. -/
def Grouping.entries (grouping : Grouping) : List Entry :=
  grouping.codes.map fun code => ⟨grouping.letter, code, grouping.group⟩

/-- All entries of a table, in the order in which they go into it. -/
def entries (groupings : List Grouping) : List Entry :=
  groupings.flatMap Grouping.entries

/-- The table that groupings go into one after another. -/
def ofGroupings (letters : List Char) (groupings : List Grouping) : ModalTable :=
  groupings.foldl (fun table grouping =>
      table.withGroup grouping.letter grouping.codes grouping.group)
    (ofLetters letters)

/-- What a table has for an entry. -/
def Entry.slot (entry : Entry) : (Char × Int64) × String :=
  ((entry.letter.toUpper, entry.code.tenths), entry.group)

section Entries

variable {listed : List Entry} {key : Char × Int64} {group : String}

/-- A grouping puts its entries before all others, the last one first. By induction on the codes.
-/
theorem groups_withGroup (table : ModalTable) (grouping : Grouping)
    : (table.withGroup grouping.letter grouping.codes grouping.group).groups
      = (grouping.entries.map Entry.slot).reverse ++ table.groups := by
  obtain ⟨letter, codes, group⟩ := grouping
  change codes.foldl (fun groups code => ((letter.toUpper, code.tenths), group) :: groups)
    table.groups = _
  generalize table.groups = groups
  induction codes generalizing groups with
  | nil => rfl
  | cons code codes ih =>
      rw [List.foldl_cons, ih]
      simp [Grouping.entries, Entry.slot]

/-- What groupings put before what was there, by induction on the groupings. -/
theorem groups_foldl_withGroup (table : ModalTable) (groupings : List Grouping)
    : (groupings.foldl (fun table grouping =>
          table.withGroup grouping.letter grouping.codes grouping.group) table).groups
      = ((entries groupings).map Entry.slot).reverse ++ table.groups := by
  induction groupings generalizing table with
  | nil => rfl
  | cons grouping groupings ih =>
      rw [List.foldl_cons, ih, groups_withGroup]
      simp [entries]

theorem groups_ofGroupings (letters : List Char) (groupings : List Grouping)
    : (ofGroupings letters groupings).groups = ((entries groupings).map Entry.slot).reverse := by
  rw [ofGroupings, groups_foldl_withGroup]
  exact List.append_nil _

/-- Of all entries with a key the last one is found in the list that has the last one first. -/
theorem lookup_slots_eq_some_iff
    : (listed.map Entry.slot).reverse.lookup key = some group
      ↔ ∃ before entry after, listed = before ++ entry :: after
          ∧ entry.slot.1 = key ∧ entry.group = group ∧ ∀ later ∈ after, later.slot.1 ≠ key := by
  rw [List.lookup_eq_some_iff]
  constructor
  · rintro ⟨newer, older, split, others⟩
    have split : listed.map Entry.slot = older.reverse ++ (key, group) :: newer.reverse := by
      rw [← List.reverse_inj, split]
      simp
    obtain ⟨before, rest, rfl, -, split⟩ := List.map_eq_append_iff.1 split
    obtain ⟨entry, after, rfl, slot, rest⟩ := List.map_eq_cons_iff.1 split
    refine ⟨before, entry, after, rfl, congrArg Prod.fst slot, congrArg Prod.snd slot, ?_⟩
    intro later member same
    have inside : later.slot ∈ newer := by
      rw [← List.mem_reverse, ← rest]
      exact List.mem_map_of_mem member
    exact bne_iff_ne.1 (others _ inside) same.symm
  · rintro ⟨before, entry, after, rfl, rfl, rfl, others⟩
    refine ⟨(after.map Entry.slot).reverse, (before.map Entry.slot).reverse, by simp [Entry.slot], ?_⟩
    intro slot member
    obtain ⟨later, inside, rfl⟩ := List.mem_map.1 (List.mem_reverse.1 member)
    exact bne_iff_ne.2 (others later inside).symm

theorem lookup_slots_eq_none_iff
    : (listed.map Entry.slot).reverse.lookup key = none
      ↔ ∀ entry ∈ listed, entry.slot.1 ≠ key := by
  simp only [List.lookup_eq_none_iff, List.mem_reverse, List.forall_mem_map, bne_iff_ne, ne_comm]

end Entries

end ModalTable
end Gcode
