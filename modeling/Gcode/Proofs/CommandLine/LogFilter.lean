import Gcode.CommandLine.LogFilter
import Gcode.Proofs.Text.Blank
import Gcode.Proofs.Text.Kinds

/-! What a setting of the log shows.
Of the directives that fit a record the one with the longest name decides. A level by itself is a
setting for all records: they are all shown, or none of them is. A pattern only takes away from what
the directives let through.
-/

namespace Gcode.CommandLine

variable {level text setting : List Char} {shows : Bool} {part : String}

-----------------------------------------------------------------------------------------
-- The directive that decides
-----------------------------------------------------------------------------------------

namespace LogDirective

variable {directive first : LogDirective} {directives : List LogDirective}

/-- A directive decides about a part of the program: it fits, none that fits has a longer name, and
none after it has one as long.
-/
def Decides (directives : List LogDirective) (part : String) (directive : LogDirective) : Prop :=
  directive.fits part
  ∧ ∃ before after, directives = before ++ directive :: after
      ∧ (∀ other ∈ before, other.fits part → other.length ≤ directive.length)
      ∧ ∀ other ∈ after, other.fits part → other.length < directive.length

theorem Decides.length_le (h : Decides directives part directive)
    : ∀ other ∈ directives, other.fits part → other.length ≤ directive.length := by
  obtain ⟨_, before, after, rfl, earlier, later⟩ := h
  intro other member fits
  rcases List.mem_append.1 member with member | member
  · exact earlier other member fits
  rcases List.mem_cons.1 member with rfl | member
  · exact Nat.le_refl _
  · exact Nat.le_of_lt (later other member fits)

theorem Decides.mem (h : Decides directives part directive) : directive ∈ directives := by
  obtain ⟨_, before, after, rfl, _⟩ := h
  simp

/-- Of a list of directives either the first one decides, as those after it that fit have shorter
names, or what decides of the others, if the first one has no longer name.
-/
theorem decides_cons_iff
    : Decides (first :: directives) part directive
      ↔ (directive = first ∧ first.fits part
            ∧ ∀ other ∈ directives, other.fits part → other.length < first.length)
        ∨ (Decides directives part directive
            ∧ (first.fits part → first.length ≤ directive.length)) := by
  constructor
  · intro given
    obtain ⟨fits, before, after, split, earlier, later⟩ := given
    cases before with
    | nil =>
        cases split
        exact .inl ⟨rfl, fits, later⟩
    | cons head before =>
        cases split
        obtain ⟨le, earlier⟩ := List.forall_mem_cons.1 earlier
        exact .inr ⟨⟨fits, before, after, rfl, earlier, later⟩, le⟩
  · intro given
    rcases given with ⟨rfl, fits, later⟩ | ⟨⟨fits, before, after, rfl, earlier, later⟩, le⟩
    · exact ⟨fits, [], directives, rfl, List.forall_mem_nil _, later⟩
    · exact ⟨fits, first :: before, after, rfl, List.forall_mem_cons.2 ⟨le, earlier⟩, later⟩

/-- What is found has a name below a bound when all that fit have. -/
theorem all_deciding?_iff {bound : Nat}
    : (deciding? part directives).all (·.length < bound)
      ↔ ∀ other ∈ directives, other.fits part → other.length < bound := by
  induction directives generalizing bound with
  | nil => simp [deciding?]
  | cons first directives ih =>
      rw [deciding?, List.forall_mem_cons]
      by_cases found : first.fits part && (deciding? part directives).all (·.length < first.length)
      · rw [if_pos found]
        obtain ⟨fits, shorter⟩ := Bool.and_eq_true_iff.1 found
        simp only [Option.all_some, decide_eq_true_eq, fits, true_imp_iff, iff_self_and]
        exact fun below other member fits => Nat.lt_trans (ih.1 shorter other member fits) below
      · rw [if_neg found, ih, iff_and_self]
        intro below fits
        by_contra above
        refine found (Bool.and_eq_true_iff.2 ⟨fits, ih.2 fun other member fits => ?_⟩)
        exact Nat.lt_of_lt_of_le (below other member fits) (Nat.le_of_not_lt above)

theorem deciding?_cons_of_shorter (fits : first.fits part)
    (shorter : ∀ other ∈ directives, other.fits part → other.length < first.length)
    : deciding? part (first :: directives) = some first := by
  rw [deciding?, if_pos (Bool.and_eq_true_iff.2 ⟨fits, all_deciding?_iff.2 shorter⟩)]

theorem deciding?_cons_of_not
    (other
      : ¬ (first.fits part
          ∧ ∀ other ∈ directives, other.fits part → other.length < first.length))
    : deciding? part (first :: directives) = deciding? part directives := by
  rw [deciding?, if_neg]
  intro found
  obtain ⟨fits, shorter⟩ := Bool.and_eq_true_iff.1 found
  exact other ⟨fits, all_deciding?_iff.1 shorter⟩

/-- What is found is what decides. By induction on the directives, each of which is asked after those
behind it.
-/
theorem deciding?_eq_some_iff
    : deciding? part directives = some directive ↔ Decides directives part directive := by
  induction directives with
  | nil => simp [deciding?, Decides]
  | cons first directives ih =>
      rw [decides_cons_iff]
      by_cases longest : first.fits part
          ∧ ∀ other ∈ directives, other.fits part → other.length < first.length
      · obtain ⟨fits, shorter⟩ := longest
        rw [deciding?_cons_of_shorter fits shorter, Option.some.injEq]
        have none : ¬ (Decides directives part directive
            ∧ (first.fits part → first.length ≤ directive.length)) := fun ⟨decides, le⟩ =>
          Nat.not_lt.2 (le fits) (shorter directive decides.mem decides.1)
        rw [or_iff_left none, eq_comm, and_iff_left ⟨fits, shorter⟩]
      · rw [deciding?_cons_of_not longest, ih, or_iff_right fun both => longest both.2,
          iff_self_and]
        intro decides fits
        by_contra above
        refine longest ⟨fits, fun other member fit => ?_⟩
        exact Nat.lt_of_le_of_lt (decides.length_le other member fit) (Nat.lt_of_not_le above)

end LogDirective

/-- A record is let through when there are no directives or the one that decides shows errors. -/
theorem LogFilter.admits_iff (filter : LogFilter) (record : LogRecord)
    : filter.admits record
      ↔ filter.directives = []
        ∨ ∃ directive, LogDirective.Decides filter.directives record.part directive
          ∧ directive.shows := by
  rw [admits, Bool.or_eq_true, List.isEmpty_iff, Option.any_eq_true]
  simp only [LogDirective.deciding?_eq_some_iff]

-----------------------------------------------------------------------------------------
-- Levels
-----------------------------------------------------------------------------------------

namespace LogFilter

end LogFilter
end Gcode.CommandLine
