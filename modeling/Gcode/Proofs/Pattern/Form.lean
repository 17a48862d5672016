import Mathlib.Computability.Language

/-! Forms of texts: languages put together from characters of one kind.
For each way of putting forms together it is said when the empty text has the form, and what must
follow a character for the whole to have it.
-/

namespace Gcode

/-- The texts of one form. -/
abbrev Form := Language Char

namespace Form

variable {p : Char → Bool} {c : Char} {text : List Char} {form rest : Form}

/-- One character of a kind. -/
def one (p : Char → Bool) : Form :=
  { text | ∃ c, p c ∧ text = [c] }

/-- Any number of characters of a kind. -/
def many (p : Char → Bool) : Form :=
  { text | ∀ c ∈ text, p c }

/-- Characters of a kind, at least one of them. -/
def several (p : Char → Bool) : Form :=
  one p * many p

/-- A form or nothing. -/
def optional (form : Form) : Form :=
  1 + form

theorem optional_eq : optional form = 1 + form :=
  rfl

theorem mem_one : text ∈ one p ↔ ∃ c, p c ∧ text = [c] :=
  Iff.rfl

theorem mem_many : text ∈ many p ↔ ∀ c ∈ text, p c :=
  Iff.rfl

theorem mem_several : text ∈ several p ↔ text ≠ [] ∧ ∀ c ∈ text, p c := by
  simp only [several, Language.mem_mul, mem_one, mem_many]
  constructor
  · intro given
    obtain ⟨_, ⟨c, hc, rfl⟩, more, hm, rfl⟩ := given
    exact ⟨by simp, by simpa using ⟨hc, hm⟩⟩
  · intro given
    obtain ⟨nonempty, all⟩ := given
    cases text with
    | nil => contradiction
    | cons c more =>
        exact ⟨[c], ⟨c, all c (by simp), rfl⟩, more, fun d hd => all d (by simp [hd]), rfl⟩

theorem mem_optional : text ∈ optional form ↔ text = [] ∨ text ∈ form := by
  rw [optional, Language.mem_add, Language.mem_one]

-----------------------------------------------------------------------------------------
-- The empty text
-----------------------------------------------------------------------------------------

@[simp] theorem nil_mem_mul : [] ∈ form * rest ↔ [] ∈ form ∧ [] ∈ rest := by
  rw [Language.mem_mul]
  constructor
  · intro given
    obtain ⟨front, hf, back, hb, h⟩ := given
    obtain ⟨rfl, rfl⟩ := List.append_eq_nil_iff.1 h
    exact ⟨hf, hb⟩
  · intro given
    obtain ⟨hf, hb⟩ := given
    exact ⟨[], hf, [], hb, rfl⟩

@[simp] theorem nil_mem_one : [] ∈ one p ↔ False := by
  simp [mem_one]

@[simp] theorem nil_mem_many : [] ∈ many p ↔ True := by
  simp [mem_many]

@[simp] theorem nil_mem_several : [] ∈ several p ↔ False := by
  simp [mem_several]

@[simp] theorem nil_mem_optional : [] ∈ optional form ↔ True := by
  simp [mem_optional]

-----------------------------------------------------------------------------------------
-- What follows a character
-----------------------------------------------------------------------------------------

@[simp] theorem cons_mem_one : c :: text ∈ one p ↔ p c ∧ text = [] := by
  rw [mem_one]
  constructor
  · intro given
    obtain ⟨_, hp, h⟩ := given
    obtain ⟨rfl, rfl⟩ := List.cons.inj h
    exact ⟨hp, rfl⟩
  · intro given
    obtain ⟨hp, rfl⟩ := given
    exact ⟨c, hp, rfl⟩

@[simp] theorem cons_mem_many : c :: text ∈ many p ↔ p c ∧ text ∈ many p := by
  simp [mem_many]

@[simp] theorem cons_mem_several : c :: text ∈ several p ↔ p c ∧ text ∈ many p := by
  simp [mem_several, mem_many]

@[simp] theorem cons_mem_optional : c :: text ∈ optional form ↔ c :: text ∈ form := by
  simp [mem_optional]

@[simp] theorem cons_mem_one_mul : c :: text ∈ one p * rest ↔ p c ∧ text ∈ rest := by
  rw [Language.mem_mul]
  constructor
  · intro given
    obtain ⟨_, ⟨d, hd, rfl⟩, back, hb, h⟩ := given
    obtain ⟨rfl, rfl⟩ := List.cons.inj h
    exact ⟨hd, hb⟩
  · intro given
    obtain ⟨hp, hr⟩ := given
    exact ⟨[c], ⟨c, hp, rfl⟩, text, hr, rfl⟩

/-- A run either takes the character or is empty. -/
theorem cons_mem_many_mul
    : c :: text ∈ many p * rest ↔ p c ∧ text ∈ many p * rest ∨ c :: text ∈ rest := by
  simp only [Language.mem_mul]
  constructor
  · intro given
    obtain ⟨front, hf, back, hb, h⟩ := given
    cases front with
    | nil =>
        rw [List.nil_append] at h
        exact .inr (h ▸ hb)
    | cons d front =>
        obtain ⟨rfl, rfl⟩ := List.cons.inj h
        obtain ⟨hd, hf⟩ := cons_mem_many.1 hf
        exact .inl ⟨hd, front, hf, back, hb, rfl⟩
  · intro given
    rcases given with ⟨hp, front, hf, back, hb, rfl⟩ | hr
    · exact ⟨c :: front, cons_mem_many.2 ⟨hp, hf⟩, back, hb, rfl⟩
    · exact ⟨[], nil_mem_many.2 trivial, c :: text, hr, rfl⟩

@[simp] theorem cons_mem_several_mul : c :: text ∈ several p * rest ↔ p c ∧ text ∈ many p * rest := by
  rw [several, mul_assoc, cons_mem_one_mul]

/-- What follows a run may be empty. -/
theorem mem_mul_of_nil_mem (member : text ∈ form) (empty : [] ∈ rest) : text ∈ form * rest := by
  have whole := Language.append_mem_mul member empty
  rwa [List.append_nil] at whole

/-- More characters of a kind add nothing to some of them. -/
theorem several_mul_many : several p * many p = several p := by
  ext text
  constructor
  · intro given
    obtain ⟨front, hf, back, hb, rfl⟩ := given
    obtain ⟨nonempty, all⟩ := mem_several.1 hf
    refine mem_several.2 ⟨by simp [nonempty], ?_⟩
    intro c member
    exact (List.mem_append.1 member).elim (all c) (hb c)
  · intro member
    exact mem_mul_of_nil_mem member (by simp)

theorem mem_optional_mul : text ∈ optional form * rest ↔ text ∈ rest ∨ text ∈ form * rest := by
  rw [optional, add_mul, one_mul, Language.mem_add]

end Form
end Gcode
