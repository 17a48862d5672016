import Gcode.Proofs.Pattern.LongestPrefix
import Gcode.Proofs.Text.Run

/-! Functions that take prefixes greedily, put together from smaller ones.
Each of them takes the longest prefix of a form that is put together in the same way, where what
follows a run cannot be taken for more of the run.
-/

namespace Gcode

variable {form other : Form} {text : List Char} {p : Char → Bool} {c : Char}

/-- Prefixes alone decide what is found. -/
theorem Found.congr {result : Option (List Char × List Char)} (h : Found form text result)
    (same : ∀ source rest, source ++ rest = text → (source ∈ form ↔ source ∈ other))
    : Found other text result := by
  cases result with
  | none => exact fun source rest split member => h source rest split ((same _ _ split).2 member)
  | some pair =>
      have longest : LongestPrefix form text pair.1 pair.2 := h
      refine ⟨longest.split, (same _ _ longest.split).1 longest.member, ?_⟩
      exact fun more after split member => longest.longest more after split ((same _ _ split).2 member)

/-- What is found after a character, with the character before it, is what is found before it. -/
theorem Found.cons {tail : Form} {result : Option (List Char × List Char)}
    (quotient : ∀ after, c :: after ∈ form ↔ after ∈ tail) (empty : [] ∈ form → [] ∈ tail)
    (h : Found tail text result)
    : Found form (c :: text) (result.map fun (source, rest) => (c :: source, rest)) := by
  cases result with
  | none => exact NoPrefix.cons quotient (fun member => h [] text rfl (empty member)) h
  | some pair => exact LongestPrefix.cons quotient h

namespace Taker

variable {next first second : Taker}

/-- Takes nothing. -/
def stop : Taker :=
  fun text => some ([], text)

/-- Takes one character of a kind and goes on. -/
def one (p : Char → Bool) (next : Taker) : Taker
  | [] => none
  | c :: text => if p c then (next text).map fun (source, rest) => (c :: source, rest) else none

/-- Takes all characters of a kind up to the next other one and goes on. -/
def many (p : Char → Bool) (next : Taker) : Taker
  | [] => next []
  | c :: text =>
      if p c then (many p next text).map fun (source, rest) => (c :: source, rest)
      else next (c :: text)

/-- Takes what the first function takes, or else what the second one takes. -/
def orElse (first second : Taker) : Taker :=
  fun text => (first text).orElse fun _ => second text

theorem stop_takes : Takes stop 1 := by
  intro text
  refine ⟨rfl, Language.nil_mem_one, ?_⟩
  intro more after _ member
  rw [Language.mem_one] at member
  rw [member]

theorem one_takes (h : next.Takes form) : (one p next).Takes (Form.one p * form) := by
  intro text
  cases text with
  | nil => exact noPrefix_nil (by simp)
  | cons c text =>
      rw [one]
      by_cases taken : p c
      · rw [if_pos taken]
        exact (h text).cons (fun after => by simp [taken]) (by simp)
      · rw [if_neg taken]
        intro source rest split member
        cases source with
        | nil => simp at member
        | cons d source =>
            obtain ⟨rfl, _⟩ := List.cons.inj split
            exact taken (Form.cons_mem_one_mul.1 member).1

/-- A run is taken whole, by induction on the text: as long as characters of the kind come, none
of them can start what follows the run.
-/
theorem many_takes (h : next.Takes form) (apart : ∀ c after, p c → c :: after ∉ form)
    : (many p next).Takes (Form.many p * form) := by
  intro text
  induction text with
  | nil =>
      refine (h []).congr ?_
      intro source rest split
      rw [(List.append_eq_nil_iff.1 split).1]
      simp
  | cons c text ih =>
      rw [many]
      by_cases taken : p c
      · rw [if_pos taken]
        refine ih.cons (fun after => ?_) id
        simp [Form.cons_mem_many_mul, taken, apart c after taken]
      · rw [if_neg taken]
        refine (h (c :: text)).congr ?_
        intro source rest split
        cases source with
        | nil => simp
        | cons d source =>
            obtain ⟨rfl, _⟩ := List.cons.inj split
            simp [Form.cons_mem_many_mul, taken]

theorem one_of_stops (h : Text.Stops p text) : one p next text = none := by
  cases text with
  | nil => rfl
  | cons c text => rw [one, if_neg (by simp [Text.stops_cons.1 h])]

theorem many_of_stops (h : Text.Stops p text) : many p next text = next text := by
  cases text with
  | nil => rfl
  | cons c text => rw [many, if_neg (by simp [Text.stops_cons.1 h])]

/-- A run before a text is taken with what is taken of the text. -/
theorem many_append {run : List Char} (all : ∀ c ∈ run, p c) (text : List Char)
    : many p next (run ++ text)
      = (many p next text).map fun (source, rest) => (run ++ source, rest) := by
  induction run with
  | nil => simp
  | cons c run ih =>
      obtain ⟨taken, all⟩ := List.forall_mem_cons.1 all
      rw [List.cons_append, many, if_pos taken, ih all, Option.map_map]
      rfl

/-- One of two forms is known by its first character; only the second one may be empty. -/
theorem orElse_takes (hf : first.Takes form) (hs : second.Takes other) (some : [] ∉ form)
    (apart : ∀ c after, c :: after ∈ form → ∀ after, c :: after ∉ other)
    : (orElse first second).Takes (form + other) := by
  intro text
  unfold orElse
  cases found : first text with
  | none =>
      have none := hf.noPrefix found
      refine (hs text).congr ?_
      intro source rest split
      simp [Language.mem_add, none source rest split]
  | some pair =>
      obtain ⟨source, rest⟩ := pair
      have longest := hf.longest found
      refine ⟨longest.split, (Language.mem_add _ _ _).2 (.inl longest.member), ?_⟩
      intro more after split member
      rcases (Language.mem_add _ _ _).1 member with member | member
      · exact longest.longest more after split member
      -- the other form starts with no character of the prefix, so it has the empty text at most
      · cases source with
        | nil => exact (some longest.member).elim
        | cons c source =>
            cases more with
            | nil => simp
            | cons d more =>
                obtain ⟨rfl, _⟩ := List.cons.inj (longest.split.trans split.symm)
                exact (apart c source longest.member more member).elim

end Taker
end Gcode
