import Gcode.Proofs.Dialect.Rules
import Gcode.Proofs.Word.Construction

/-! Dialects of files that start from another dialect.
The table of such a dialect is the one that the file starts from with the letters of its entries
filled anew. A step of a scan only looks at the rule of the letter that the text starts with, so
what is read by rules that two dialects share is read under both.
-/

namespace Gcode

open Text

-----------------------------------------------------------------------------------------
-- Entries
-----------------------------------------------------------------------------------------

namespace RuleDefinition

variable {definition : RuleDefinition} {letter other : Letter} {rule : Rule}

/-- An entry names a letter, in either case. -/
def Names (definition : RuleDefinition) (letter : Letter) : Prop :=
  definition.letter.toList = [letter.char] ∨ definition.letter.toList = [letter.char.toLower]

instance : Decidable (definition.Names letter) :=
  inferInstanceAs (Decidable (_ ∨ _))

/-- A rule is what an entry says, with its patterns read. -/
structure Describes (definition : RuleDefinition) (rule : Rule) : Prop where
  kind : rule.kind = definition.kind
  pattern : readPattern definition.pattern = .ok rule.pattern
  fallback : definition.fallback.mapM readPattern = .ok rule.fallback
  format : rule.format = definition.format
  description : rule.description = definition.description

theorem readLetter_eq_ok_iff
    : readLetter definition.letter = .ok letter ↔ definition.Names letter := by
  unfold readLetter Names
  split
  · rename_i c single
    cases found : Letter.ofChar? c with
    | none =>
        have mark := @Letter.ofChar?_eq_some_iff c letter
        rw [found] at mark
        simpa [single] using mark
    | some named =>
        have mark := @Letter.ofChar?_eq_some_iff c letter
        rw [found, Option.some.injEq] at mark
        simpa [single] using mark
  · rename_i several
    have other (c : Char) : definition.letter.toList ≠ [c] := several c
    simp [other]

/-- An entry names one letter at most. -/
theorem Names.unique (h : definition.Names letter) (h' : definition.Names other)
    : letter = other := by
  have same := (readLetter_eq_ok_iff.2 h).symm.trans (readLetter_eq_ok_iff.2 h')
  exact Except.ok.inj same

theorem names_and_describes_of_toRule (h : definition.toRule = .ok (letter, rule))
    : definition.Names letter ∧ definition.Describes rule := by
  obtain ⟨named, letterRead, h⟩ := bind_eq_ok_iff.1 h
  obtain ⟨pattern, patternRead, h⟩ := bind_eq_ok_iff.1 h
  obtain ⟨fallback, fallbackRead, h⟩ := bind_eq_ok_iff.1 h
  cases h
  exact ⟨readLetter_eq_ok_iff.1 letterRead, rfl, patternRead, fallbackRead, rfl, rfl⟩

end RuleDefinition

-----------------------------------------------------------------------------------------
-- Tables
-----------------------------------------------------------------------------------------

namespace DialectFile

variable {before after definitions : List RuleDefinition} {definition : RuleDefinition}
  {table result : RuleTable} {letter : Letter}

/-- One more entry over the rules so far. -/
def addEntry (table : RuleTable) (definition : RuleDefinition)
    : Except DialectFault RuleTable := do
  let (letter, rule) ← definition.toRule
  return table.insert letter rule

theorem addEntry_eq_ok (h : addEntry table definition = .ok result)
    : ∃ letter rule, definition.Names letter ∧ definition.Describes rule
        ∧ result = table.insert letter rule := by
  obtain ⟨⟨letter, rule⟩, defined, inserted⟩ := bind_eq_ok_iff.1 h
  cases inserted
  obtain ⟨names, describes⟩ := RuleDefinition.names_and_describes_of_toRule defined
  exact ⟨letter, rule, names, describes, rfl⟩

/-- Entries leave the slots of the letters that they do not name as they are. -/
theorem foldlM_addEntry_of_not_names (h : definitions.foldlM addEntry table = .ok result)
    (others : ∀ definition ∈ definitions, ¬ definition.Names letter)
    : result letter = table letter := by
  induction definitions generalizing table with
  | nil =>
      cases h
      rfl
  | cons definition definitions ih =>
      obtain ⟨other, others⟩ := List.forall_mem_cons.1 others
      rw [List.foldlM_cons] at h
      obtain ⟨next, added, h⟩ := bind_eq_ok_iff.1 h
      obtain ⟨named, rule, names, _, rfl⟩ := addEntry_eq_ok added
      have differs : letter ≠ named := by
        rintro rfl
        exact other names
      rw [ih h others, RuleTable.insert, if_neg differs]

/-- The last entry that names a letter fills its slot. -/
theorem foldlM_addEntry_of_names
    (h : (before ++ definition :: after).foldlM addEntry table = .ok result)
    (names : definition.Names letter) (last : ∀ other ∈ after, ¬ other.Names letter)
    : ∃ rule, result letter = some rule ∧ definition.Describes rule := by
  rw [List.foldlM_append] at h
  obtain ⟨next, _, h⟩ := bind_eq_ok_iff.1 h
  rw [List.foldlM_cons] at h
  obtain ⟨next, added, h⟩ := bind_eq_ok_iff.1 h
  obtain ⟨named, rule, names', describes, rfl⟩ := addEntry_eq_ok added
  obtain rfl := names.unique names'
  exact ⟨rule, by rw [foldlM_addEntry_of_not_names h last, RuleTable.insert, if_pos rfl], describes⟩

end DialectFile

-----------------------------------------------------------------------------------------
-- Scans by shared rules
-----------------------------------------------------------------------------------------

section Scans

variable {settings : Settings} {first second : Dialect} {text rest : List Char} {word : Word}
  {words : List Word}

/-- A word as it is in another dialect. -/
def Word.withDialect (dialect : Dialect) (word : Word) : Word :=
  { word with dialect }

/-- A step as it is in another dialect. -/
def Step.withDialect (dialect : Dialect) : Step → Step
  | .word word rest => .word (word.withDialect dialect) rest
  | .stop => .stop
  | .fail error rest => .fail error rest

/-- A word is taken by the rule of its letter alone. -/
theorem Step.take_eq_word_of_rules
    (h : Step.take { settings with dialect := first } text = .word word rest)
    (shared : second.rules word.letter = first.rules word.letter)
    : Step.take { settings with dialect := second } text
      = .word (word.withDialect second) rest := by
  unfold take at h ⊢
  split at h
  · split at h <;> contradiction
  · rename_i letter rule tail next
    obtain ⟨c, start, mark, defined⟩ := nextLetter?_eq_some.1 next
    split at h
    · contradiction
    · rename_i source after matched
      unfold Word.ofMatch at h
      cases value : rule.read? source with
      | none =>
          simp only [value] at h
          contradiction
      | some _ =>
          simp only [value] at h
          cases h
          have next := nextLetter?_eq_some.2 ⟨c, start, mark, shared.trans defined⟩
          simp only [next, matched, Word.ofMatch, value]
          rfl

/-- Words whose rules two dialects share are read under both. By induction on the scan: each of its
words is taken by a shared rule, and the blanks at its end are blanks in every dialect.
-/
theorem readWords_of_rules
    (h : readWords { settings with dialect := first } text = .ok words)
    (shared : ∀ word ∈ words, second.rules word.letter = first.rules word.letter)
    : readWords { settings with dialect := second } text
      = .ok (words.map (Word.withDialect second)) := by
  induction words generalizing text with
  | nil =>
      have scanned := scanWords_of_readWords h
      cases step : Step.take { settings with dialect := first } text with
      | stop => exact readWords_of_stop (Step.take_eq_stop_iff.2 (Step.take_eq_stop_iff.1 step))
      | fail error rest => simp [scanWords_of_fail step] at scanned
      | word word rest => simp [scanWords_of_word step] at scanned
  | cons word words ih =>
      obtain ⟨rest, step, more⟩ := take_of_readWords h
      obtain ⟨ours, shared⟩ := List.forall_mem_cons.1 shared
      rw [readWords_of_word (Step.take_eq_word_of_rules step ours), ih more shared]
      rfl

theorem Dialect.nextLetter?_of_rules (shared : second.rules = first.rules)
    : second.nextLetter? text = first.nextLetter? text := by
  simp only [nextLetter?, rule?, shared]

theorem Step.take_of_rules (settings : Settings) (text : List Char)
    (shared : second.rules = first.rules)
    : Step.take { settings with dialect := second } text
      = (Step.take { settings with dialect := first } text).withDialect second := by
  unfold take Word.ofMatch
  rw [Dialect.nextLetter?_of_rules shared]
  cases first.nextLetter? text with
  | none =>
      dsimp only
      split <;> rfl
  | some next =>
      obtain ⟨letter, rule, rest⟩ := next
      dsimp only
      cases rule.match? rest with
      | none => rfl
      | some found =>
          dsimp only
          cases rule.read? found.1 <;> rfl

theorem scanWords_of_rules (shared : second.rules = first.rules) (text : List Char)
    : scanWords { settings with dialect := second } text
      = ((scanWords { settings with dialect := first } text).1.map (Word.withDialect second),
          (scanWords { settings with dialect := first } text).2) := by
  have step (text : List Char) := Step.take_of_rules settings text shared
  fun_induction scanWords { settings with dialect := first } text with
  | case1 text stop =>
      rw [scanWords_of_stop (by rw [step, stop]; rfl)]
      rfl
  | case2 text error rest fails =>
      rw [scanWords_of_fail (by rw [step, fails]; rfl)]
      rfl
  | case3 text word rest found words error more ih =>
      rw [scanWords_of_word (by rw [step, found]; rfl), ih, more]
      rfl

/-- A scan as it is in another dialect. -/
def Scan.withDialect (dialect : Dialect) (scan : Scan) : Scan :=
  { scan with settings := { scan.settings with dialect } }

theorem Scan.next_of_rules {scan : Scan} (shared : second.rules = scan.settings.dialect.rules)
    : (scan.withDialect second).next
      = (scan.next.1.map (Except.map (Word.withDialect second)),
          scan.next.2.withDialect second) := by
  unfold next
  by_cases finished : scan.finished
  · simp [withDialect, finished]
  · simp only [withDialect, finished]
    rw [Step.take_of_rules scan.settings _ shared]
    cases Step.take scan.settings scan.rest <;> rfl

theorem Scan.settings_next (scan : Scan) : scan.next.2.settings = scan.settings := by
  unfold next
  split
  · rfl
  · split <;> rfl

theorem Scan.settings_after (scan : Scan) (count : Nat)
    : (scan.after count).settings = scan.settings := by
  induction count generalizing scan with
  | zero => rfl
  | succ count ih => rw [after, ih, settings_next]

/-- A scan by the same rules gives the same answers and leaves the same texts, one after the
other.
-/
theorem Scan.after_of_rules {scan : Scan} (shared : second.rules = scan.settings.dialect.rules)
    (count : Nat)
    : (scan.withDialect second).after count = (scan.after count).withDialect second := by
  induction count generalizing scan with
  | zero => rfl
  | succ count ih =>
      rw [after, after, next_of_rules shared]
      exact ih (by rw [scan.settings_next, shared])

/-- A scan of a text by the same rules, after any number of answers: the same text is left, and the
next answer is the same.
-/
theorem Scan.answers_of_rules (settings : Settings) (text : List Char)
    (shared : second.rules = first.rules) (count : Nat)
    : let ours := (start { settings with dialect := second } text).after count
      let theirs := (start { settings with dialect := first } text).after count
      ours.rest = theirs.rest
      ∧ ours.next.1 = theirs.next.1.map (Except.map (Word.withDialect second)) := by
  obtain ⟨theirs, ht⟩ : ∃ theirs,
      theirs = (start { settings with dialect := first } text).after count :=
    ⟨_, rfl⟩
  have ours : (start { settings with dialect := second } text).after count
      = theirs.withDialect second := by
    have other : start { settings with dialect := second } text
        = (start { settings with dialect := first } text).withDialect second := rfl
    rw [ht, other]
    exact after_of_rules shared count
  have same : second.rules = theirs.settings.dialect.rules := by
    rw [ht, settings_after]
    exact shared
  rw [ours, ← ht]
  exact ⟨rfl, congrArg Prod.fst (next_of_rules same)⟩

end Scans

-----------------------------------------------------------------------------------------
-- Dialects over dialects
-----------------------------------------------------------------------------------------

namespace DialectFile

variable {file : DialectFile} {base dialect : Dialect} {letter : Letter}

/-- No entry of a file names a letter. -/
def LeavesAlone (file : DialectFile) (letter : Letter) : Prop :=
  ∀ definition ∈ file.rules, ¬ definition.Names letter

/-- What a dialect over another one keeps of it, and what it takes from its file. It has the letters
of both. A letter has the rule of the last entry that names it, and without such an entry the rule
that it had. Text that is read as words of letters that the file leaves alone is read as the same
words in both dialects, whichever of them it is first read in. A file without entries changes
nothing: scans give the same answers and leave the same texts.
-/
structure Extends (file : DialectFile) (base dialect : Dialect) : Prop where
  letters
    : ∀ letter, letter ∈ dialect.letters
        ↔ letter ∈ base.letters ∨ ∃ definition ∈ file.rules, definition.Names letter
  defined
    : ∀ before after definition letter, file.rules = before ++ definition :: after
        → definition.Names letter → (∀ other ∈ after, ¬ other.Names letter)
        → ∃ rule, dialect.rules letter = some rule ∧ definition.Describes rule
  kept : ∀ letter, file.LeavesAlone letter → dialect.rules letter = base.rules letter
  readAfter
    : ∀ (settings : Settings) text words,
        readWords { settings with dialect := base } text = .ok words
        → (∀ word ∈ words, file.LeavesAlone word.letter)
        → readWords { settings with dialect := dialect } text
            = .ok (words.map (Word.withDialect dialect))
          ∧ ∀ word ∈ words, word.eq (word.withDialect dialect)
  readBefore
    : ∀ (settings : Settings) text words,
        readWords { settings with dialect := dialect } text = .ok words
        → (∀ word ∈ words, file.LeavesAlone word.letter)
        → readWords { settings with dialect := base } text
            = .ok (words.map (Word.withDialect base))
          ∧ ∀ word ∈ words, word.eq (word.withDialect base)
  unchanged
    : file.rules = [] → ∀ (settings : Settings) text,
        scanWords { settings with dialect := dialect } text
          = ((scanWords { settings with dialect := base } text).1.map (Word.withDialect dialect),
              (scanWords { settings with dialect := base } text).2)
        ∧ ∀ count,
            let ours := (Scan.start { settings with dialect := dialect } text).after count
            let theirs := (Scan.start { settings with dialect := base } text).after count
            ours.rest = theirs.rest
            ∧ ours.next.1 = theirs.next.1.map (Except.map (Word.withDialect dialect))

theorem exists_last_names {definitions : List RuleDefinition}
    (named : ∃ definition ∈ definitions, definition.Names letter)
    : ∃ before after definition, definitions = before ++ definition :: after
        ∧ definition.Names letter ∧ ∀ other ∈ after, ¬ other.Names letter := by
  induction definitions with
  | nil => simp at named
  | cons first definitions ih =>
      by_cases later : ∃ definition ∈ definitions, definition.Names letter
      · obtain ⟨before, after, definition, split, found⟩ := ih later
        exact ⟨first :: before, after, definition, congrArg (first :: ·) split, found⟩
      · have names : first.Names letter := by simpa [later] using named
        exact ⟨[], definitions, first, rfl, names, by simpa using later⟩

theorem rules_of_toDialect (h : file.toDialect (some base) = .ok dialect)
    : file.rules.foldlM addEntry base.rules = .ok dialect.rules := by
  obtain ⟨table, filled, built⟩ := bind_eq_ok_iff.1 h
  rw [Dialect.rules_of_ofRules_entries built]
  exact mapError_eq_ok_iff.1 filled

/-- Words that are read are equal to themselves in any dialect. -/
theorem eq_withDialect_of_readWords {settings : Settings} {text : List Char} {words : List Word}
    (other : Dialect) (h : readWords settings text = .ok words)
    : ∀ word ∈ words, word.eq (word.withDialect other) := by
  intro word member
  have scanned : word ∈ (scanWords settings text).1 := by rwa [scanWords_of_readWords h]
  obtain ⟨letter, value⟩ := Word.eq_iff.1 (eq_self_of_mem_scanWords scanned)
  exact Word.eq_iff.2 ⟨letter, value⟩

/-- A dialect that is built over another one keeps all of it that its file does not name. -/
theorem extends_of_toDialect (h : file.toDialect (some base) = .ok dialect)
    : file.Extends base dialect := by
  have filled := rules_of_toDialect h
  have kept (letter : Letter) (alone : file.LeavesAlone letter)
      : dialect.rules letter = base.rules letter :=
    foldlM_addEntry_of_not_names filled alone
  have defined (before after : List RuleDefinition) (definition : RuleDefinition)
      (letter : Letter) (split : file.rules = before ++ definition :: after)
      (names : definition.Names letter)
      (last : ∀ other ∈ after, ¬ other.Names letter)
      : ∃ rule, dialect.rules letter = some rule ∧ definition.Describes rule :=
    foldlM_addEntry_of_names (split ▸ filled) names last
  constructor
  case kept => exact kept
  case defined => exact defined
  case letters =>
    intro letter
    rw [Dialect.letters, Dialect.letters, RuleTable.mem_letters, RuleTable.mem_letters]
    by_cases alone : file.LeavesAlone letter
    · have none : ¬ ∃ definition ∈ file.rules, definition.Names letter := by
        simpa [LeavesAlone] using alone
      simp [kept letter alone, none]
    · have named : ∃ definition ∈ file.rules, definition.Names letter := by
        simpa [LeavesAlone] using alone
      obtain ⟨before, after, definition, split, names, last⟩ := exists_last_names named
      obtain ⟨rule, filled, _⟩ := defined before after definition letter split names last
      simp [filled, named]
  case readAfter =>
    intro settings text words read alone
    have shared : ∀ word ∈ words, dialect.rules word.letter = base.rules word.letter :=
      fun word member => kept word.letter (alone word member)
    exact ⟨readWords_of_rules read shared, eq_withDialect_of_readWords dialect read⟩
  case readBefore =>
    intro settings text words read alone
    have shared : ∀ word ∈ words, base.rules word.letter = dialect.rules word.letter :=
      fun word member => (kept word.letter (alone word member)).symm
    exact ⟨readWords_of_rules read shared, eq_withDialect_of_readWords base read⟩
  case unchanged =>
    intro empty settings text
    have shared : dialect.rules = base.rules := by
      funext letter
      exact kept letter (by simp [LeavesAlone, empty])
    exact ⟨scanWords_of_rules shared text, Scan.answers_of_rules settings text shared⟩

/-- A file with an entry for small `s`, which are whole numbers for it. -/
def spindleFile : DialectFile where
  name := "mill"
  description := none
  inherits := some "linuxcnc"
  rules :=
    [{ letter := "s", kind := .integer, pattern := "^\\d+", fallback := none, format := .integer,
       description := "Spindle speed" }]

theorem extends_spindleFile
    : ∃ dialect, spindleFile.toDialect (some Dialect.linuxCnc) = .ok dialect
        ∧ spindleFile.Extends Dialect.linuxCnc dialect := by
  have accepted : (spindleFile.toDialect (some Dialect.linuxCnc)).isOk := by decide +kernel
  obtain ⟨dialect, built⟩ := exists_of_isOk accepted
  exact ⟨dialect, built, extends_of_toDialect built⟩

end DialectFile
end Gcode
