import Gcode.Proofs.Pattern.Form

/-! The longest prefix of a text that has a form.
There is at most one, so two functions that take it are the same function.
-/

namespace Gcode

variable {form : Form} {text source rest : List Char}

/-- The text falls into a prefix of the form and the rest, and no longer prefix has the form. -/
structure LongestPrefix (form : Form) (text source rest : List Char) : Prop where
  split : source ++ rest = text
  member : source ∈ form
  longest : ∀ more after, more ++ after = text → more ∈ form → more.length ≤ source.length

/-- No prefix of the text has the form. -/
def NoPrefix (form : Form) (text : List Char) : Prop :=
  ∀ source rest, source ++ rest = text → source ∉ form

theorem LongestPrefix.unique {source' rest' : List Char} (h : LongestPrefix form text source rest)
    (h' : LongestPrefix form text source' rest') : source = source' ∧ rest = rest' := by
  have same : source.length = source'.length :=
    le_antisymm (h'.longest _ _ h.split h.member) (h.longest _ _ h'.split h'.member)
  exact List.append_inj (h.split.trans h'.split.symm) same

theorem LongestPrefix.not_noPrefix (h : LongestPrefix form text source rest)
    : ¬ NoPrefix form text :=
  fun none => none source rest h.split h.member

-----------------------------------------------------------------------------------------
-- One character
-----------------------------------------------------------------------------------------

section Cons

variable {c : Char} {tail : Form}

theorem longestPrefix_nil (member : [] ∈ form) : LongestPrefix form [] [] [] where
  split := rfl
  member := member
  longest more after split _ := by simp [(List.append_eq_nil_iff.1 split).1]

theorem noPrefix_nil (not_member : [] ∉ form) : NoPrefix form [] := by
  intro source rest split
  rwa [(List.append_eq_nil_iff.1 split).1]

/-- A longest prefix after a character, with the character before it. -/
theorem LongestPrefix.cons (quotient : ∀ after, c :: after ∈ form ↔ after ∈ tail)
    (h : LongestPrefix tail text source rest)
    : LongestPrefix form (c :: text) (c :: source) rest where
  split := by rw [List.cons_append, h.split]
  member := (quotient source).2 h.member
  longest more after split member := by
    cases more with
    | nil => simp
    | cons d more =>
        obtain ⟨rfl, tails⟩ := List.cons.inj split
        exact Nat.succ_le_succ (h.longest more after tails ((quotient more).1 member))

/-- Where nothing can follow the character, the empty prefix is the longest one. -/
theorem longestPrefix_of_noPrefix (quotient : ∀ after, c :: after ∈ form ↔ after ∈ tail)
    (member : [] ∈ form) (none : NoPrefix tail text)
    : LongestPrefix form (c :: text) [] (c :: text) where
  split := rfl
  member := member
  longest more after split has := by
    cases more with
    | nil => exact Nat.le_refl _
    | cons d more =>
        obtain ⟨rfl, tails⟩ := List.cons.inj split
        exact (none more after tails ((quotient more).1 has)).elim

theorem NoPrefix.cons (quotient : ∀ after, c :: after ∈ form ↔ after ∈ tail)
    (not_member : [] ∉ form) (none : NoPrefix tail text) : NoPrefix form (c :: text) := by
  intro source rest split has
  cases source with
  | nil => exact not_member has
  | cons d source =>
      obtain ⟨rfl, tails⟩ := List.cons.inj split
      exact none source rest tails ((quotient source).1 has)

end Cons

-----------------------------------------------------------------------------------------
-- Functions that take a prefix
-----------------------------------------------------------------------------------------

/-- What a function takes from the start of a text, and the rest. -/
abbrev Taker := List Char → Option (List Char × List Char)

/-- What was found at the start of a text is the longest prefix of a form, or nothing where no
prefix has it.
-/
def Found (form : Form) (text : List Char) : Option (List Char × List Char) → Prop
  | some (source, rest) => LongestPrefix form text source rest
  | none => NoPrefix form text

/-- The function takes the longest prefix of a form, and nothing where no prefix has it. -/
def Taker.Takes (take : Taker) (form : Form) : Prop :=
  ∀ text, Found form text (take text)

/-- There is only one thing to be found. -/
theorem Found.unique {result other : Option (List Char × List Char)} (h : Found form text result)
    (h' : Found form text other) : result = other := by
  cases result with
  | none =>
      cases other with
      | none => rfl
      | some pair => exact (LongestPrefix.not_noPrefix h' h).elim
  | some pair =>
      cases other with
      | none => exact (LongestPrefix.not_noPrefix h h').elim
      | some pair' =>
          obtain ⟨source, rest⟩ := LongestPrefix.unique h h'
          rw [Prod.ext source rest]

namespace Taker.Takes

variable {take : Taker}

theorem longest (h : take.Takes form) (found : take text = some (source, rest))
    : LongestPrefix form text source rest := by
  have ht := h text
  rwa [found] at ht

theorem noPrefix (h : take.Takes form) (none : take text = none) : NoPrefix form text := by
  have ht := h text
  rwa [none] at ht

end Taker.Takes
end Gcode
