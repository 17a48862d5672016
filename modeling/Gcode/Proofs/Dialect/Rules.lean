import Gcode.Proofs.Dialect.Loading
import Gcode.Proofs.Letter

/-! Rules that make up a dialect.
Each rule has to be one of a letter that can write its values, and there has to be a rule. Of the
rules that are given for a letter, in either case, the last one counts.
-/

namespace Gcode

namespace RuleTable

theorem mem_letters {table : RuleTable} {letter : Letter}
    : letter ∈ table.letters ↔ (table letter).isSome := by
  simp [letters, letter.mem_all]

/-- Every rule of a dialect can write its values. -/
def Accepts (table : RuleTable) : Prop :=
  ∀ letter rule, table letter = some rule → rule.format.accepts rule.kind

end RuleTable

namespace Dialect

variable {name : String} {description : Option String} {rules : List (Char × Rule)}
  {table result : RuleTable} {dialect : Dialect}

/-- A rule can be given for a character: it is a letter, and the rule can write its values. -/
def Admits (entry : Char × Rule) : Prop :=
  entry.1.isAlpha ∧ entry.2.format.accepts entry.2.kind

instance (entry : Char × Rule) : Decidable (Admits entry) :=
  inferInstanceAs (Decidable (_ ∧ _))

/-- The last rule that is given for a letter, in either case. -/
def lastRule? (rules : List (Char × Rule)) : RuleTable :=
  fun letter => (rules.reverse.find? fun entry => entry.1.toUpper == letter.char).map Prod.snd

theorem lastRule?_cons (entry : Char × Rule) (rules : List (Char × Rule)) (letter : Letter)
    : lastRule? (entry :: rules) letter
      = (lastRule? rules letter).or
          (if entry.1.toUpper = letter.char then some entry.2 else none) := by
  rw [lastRule?, List.reverse_cons, List.find?_append, Option.map_or]
  congr 1
  by_cases same : entry.1.toUpper = letter.char <;> simp [same]

theorem addRule_eq_ok_iff {entry : Char × Rule}
    : addRule name table entry = .ok result
      ↔ entry.2.format.accepts entry.2.kind
          ∧ ∃ letter, Letter.ofChar? entry.1 = some letter ∧ result = table.insert letter entry.2 := by
  obtain ⟨c, rule⟩ := entry
  simp only [addRule]
  cases Letter.ofChar? c with
  | none => simp
  | some letter =>
      by_cases accepts : rule.format.accepts rule.kind
      · simp [accepts, eq_comm]
      · simp [accepts]

/-- Rules that can be given are added, and no others are: a letter gets the last of its rules. By
induction on the rules.
-/
theorem foldlM_addRule_eq_ok_iff
    : rules.foldlM (addRule name) table = .ok result
      ↔ (∀ entry ∈ rules, Admits entry)
          ∧ result = fun letter => (lastRule? rules letter).or (table letter) := by
  induction rules generalizing table with
  | nil =>
      have none (letter : Letter) : lastRule? [] letter = none := rfl
      simp only [List.foldlM_nil, pure, Except.pure, Except.ok.injEq, List.not_mem_nil, none,
        Option.none_or, false_implies, implies_true, true_and]
      exact eq_comm
  | cons entry rules ih =>
      have slots {letter : Letter} (mark : Letter.ofChar? entry.1 = some letter)
          : (fun other => (lastRule? rules other).or (table.insert letter entry.2 other))
            = fun other => (lastRule? (entry :: rules) other).or (table other) := by
        funext other
        rw [lastRule?_cons, Letter.ofChar?_eq_some.1 mark, Option.or_assoc, RuleTable.insert]
        congr 1
        by_cases same : other = letter
        · simp [same]
        · have differs : letter.char ≠ other.char := fun equal => same (Letter.char_inj.1 equal).symm
          simp [same, differs]
      rw [List.foldlM_cons, bind_eq_ok_iff, List.forall_mem_cons, Admits]
      simp only [addRule_eq_ok_iff, ih, Letter.isAlpha_iff]
      constructor
      · rintro ⟨next, ⟨accepts, letter, mark, rfl⟩, all, rfl⟩
        exact ⟨⟨⟨⟨letter, mark⟩, accepts⟩, all⟩, slots mark⟩
      · rintro ⟨⟨⟨⟨letter, mark⟩, accepts⟩, all⟩, rfl⟩
        exact ⟨_, ⟨accepts, letter, mark, rfl⟩, all, (slots mark).symm⟩

theorem exists_lastRule? (some : rules ≠ []) (all : ∀ entry ∈ rules, Admits entry)
    : ∃ letter, ((lastRule? rules) letter).isSome := by
  obtain ⟨entry, rules, rfl⟩ := List.exists_cons_of_ne_nil some
  obtain ⟨letter, mark⟩ := Letter.isAlpha_iff.1 (all entry List.mem_cons_self).1
  refine ⟨letter, ?_⟩
  rw [lastRule?_cons, if_pos (Letter.ofChar?_eq_some.1 mark)]
  simp

/-- Rules make up a dialect exactly if there are any and each of them can be given. A letter has the
last rule that is given for it, in either case.
-/
theorem ofRules_eq_ok_iff
    : ofRules name description rules = .ok dialect
      ↔ rules ≠ [] ∧ (∀ entry ∈ rules, Admits entry)
          ∧ dialect = { name, description, rules := lastRule? rules } := by
  have filled (result : RuleTable)
      : rules.foldlM (addRule name) RuleTable.empty = .ok result
        ↔ (∀ entry ∈ rules, Admits entry) ∧ result = lastRule? rules := by
    rw [foldlM_addRule_eq_ok_iff]
    simp [RuleTable.empty]
  rw [ofRules, bind_eq_ok_iff]
  constructor
  · rintro ⟨table, added, made⟩
    obtain ⟨all, rfl⟩ := (filled table).1 added
    split at made
    · contradiction
    · rename_i some
      cases made
      refine ⟨?_, all, rfl⟩
      rintro rfl
      exact some rfl
  · rintro ⟨some, all, rfl⟩
    obtain ⟨letter, slot⟩ := exists_lastRule? some all
    refine ⟨lastRule? rules, (filled _).2 ⟨all, rfl⟩, ?_⟩
    have letters : (lastRule? rules).letters ≠ [] :=
      List.ne_nil_of_mem (RuleTable.mem_letters.2 slot)
    rw [if_neg (by simpa using letters)]
    rfl

/-- The built-in dialect is the one of its rules. -/
theorem ofRules_linuxCnc
    : ofRules linuxCnc.name linuxCnc.description LinuxCnc.rules = .ok linuxCnc := by
  refine ofRules_eq_ok_iff.2 ⟨by simp [LinuxCnc.rules], by decide, ?_⟩
  have slots : ∀ letter, linuxCnc.rules letter = lastRule? LinuxCnc.rules letter := by
    refine Letter.forall_of_alphabet ?_
    simp only [Letter.alphabet, List.forall_mem_cons]
    repeat' apply And.intro
    all_goals intros
    all_goals first | rfl | contradiction
  rw [← funext slots]

theorem accepts_of_ofRules (h : ofRules name description rules = .ok dialect)
    : dialect.rules.Accepts := by
  obtain ⟨-, all, rfl⟩ := ofRules_eq_ok_iff.1 h
  intro letter rule slot
  obtain ⟨entry, found, rfl⟩ := Option.map_eq_some_iff.1 slot
  exact (all entry (List.mem_reverse.1 (List.mem_of_find?_eq_some found))).2

/-- The entries of a table for some letters give these letters the rules that they have in it. -/
theorem lastRule?_entries (table : RuleTable) (letters : List Letter) (letter : Letter)
    : lastRule? ((letters.filterMap fun letter => (table letter).map (letter, ·)).map
          fun (letter, rule) => (letter.char, rule)) letter
      = if letter ∈ letters then table letter else none := by
  induction letters with
  | nil => rfl
  | cons first letters ih =>
      cases slot : table first with
      | none =>
          simp only [List.filterMap_cons, slot, Option.map_none, ih]
          by_cases same : letter = first <;> simp [same, slot]
      | some rule =>
          simp only [List.filterMap_cons, slot, Option.map_some, List.map_cons, lastRule?_cons, ih,
            first.toUpper_char, Letter.char_inj]
          by_cases same : letter = first
          · by_cases again : first ∈ letters <;> simp [same, slot, again]
          · simp [same, Ne.symm same]

/-- A dialect of the entries of a table has that table. -/
theorem rules_of_ofRules_entries
    (h
      : ofRules name description
          (table.entries.map fun (letter, rule) => (letter.char, rule)) = .ok dialect)
    : dialect.rules = table := by
  obtain ⟨-, -, rfl⟩ := ofRules_eq_ok_iff.1 h
  funext letter
  have slot := lastRule?_entries table Letter.all letter
  rwa [if_pos letter.mem_all] at slot

end Dialect
end Gcode
