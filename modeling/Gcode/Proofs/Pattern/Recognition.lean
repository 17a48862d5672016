import Gcode.Pattern.Basic
import Gcode.Proofs.Pattern.LongestPrefix

/-! Programs that recognise a form.
Each list of instructions that a program can go on from has a form of its own: what may still
follow. If the fronts of the program agree with these forms, a run takes the longest prefix.
-/

namespace Gcode.Pattern

namespace Front

/-- The instructions that a program goes on from after a character. -/
def next (front : Front) (c : Char) : List Nat :=
  front.waiting.filterMap fun (set, next) => if set.contains c then some next else none

variable (c : Char) (set : CharSet) (goal : Nat) (waiting : List (CharSet × Nat)) (matched : Bool)

@[simp] theorem next_nil : (⟨[], matched⟩ : Front).next c = [] :=
  rfl

@[simp] theorem next_cons
    : (⟨(set, goal) :: waiting, matched⟩ : Front).next c
      = if set.contains c then goal :: (⟨waiting, matched⟩ : Front).next c
        else (⟨waiting, matched⟩ : Front).next c := by
  unfold next
  rw [List.filterMap_cons]
  split <;> split at * <;> simp_all

/-- What a program has come to agrees with the form of what may follow: it has matched where the
empty text has the form, and a character leads to the instructions of what may follow it, or to
none where nothing may.
-/
structure Agrees (front : Front) (state : List Nat → Form → Prop) (form : Form) : Prop where
  matched : front.matched = true ↔ [] ∈ form
  next : ∀ c, ∃ tail : Form,
    (∀ text, c :: text ∈ form ↔ text ∈ tail)
    ∧ (state (front.next c) tail ∨ front.next c = [] ∧ tail = 0)

/-- A front agrees with a form when the sets that it waits for have no character in common, and
each of them leads to what the form has after its characters. Each branch is a set with the
instruction after it and the form of what may follow.
-/
theorem agrees_of_branches {front : Front} {state : List Nat → Form → Prop} {form : Form}
    (branches : List (CharSet × Nat × Form)) (matched : Bool)
    (same : front = ⟨branches.map fun (set, goal, _) => (set, goal), matched⟩)
    (apart : branches.Pairwise fun one other => ∀ c, one.1.contains c → other.1.contains c = false)
    (ends : matched = true ↔ [] ∈ form)
    (quotient : ∀ c text,
      c :: text ∈ form ↔ ∃ branch ∈ branches, branch.1.contains c ∧ text ∈ branch.2.2)
    (goes : ∀ branch ∈ branches, state [branch.2.1] branch.2.2) : front.Agrees state form := by
  subst same
  refine ⟨ends, ?_⟩
  intro c
  simp only [quotient, next, List.filterMap_map]
  clear ends quotient
  -- at most one branch takes the character, and the others change nothing
  induction branches with
  | nil => exact ⟨0, by simp [Language.notMem_zero], .inr ⟨rfl, rfl⟩⟩
  | cons branch branches ih =>
      obtain ⟨set, goal, tail⟩ := branch
      rw [List.pairwise_cons] at apart
      by_cases taken : set.contains c
      · have others : ∀ branch ∈ branches, branch.1.contains c = false :=
          fun branch member => apart.1 branch member c taken
        refine ⟨tail, fun text => ?_, .inl ?_⟩
        · constructor
          · intro given
            obtain ⟨branch, member, contains, h⟩ := given
            rcases List.mem_cons.1 member with rfl | member
            · exact h
            · rw [others branch member] at contains
              contradiction
          · exact fun h => ⟨_, List.mem_cons_self, taken, h⟩
        · have none : branches.filterMap (fun branch =>
              if branch.1.contains c then some branch.2.1 else none) = [] :=
            List.filterMap_eq_nil_iff.2 fun branch member => by simp [others branch member]
          simpa [taken, Function.comp_def, none] using goes _ List.mem_cons_self
      · simpa [taken] using ih apart.2 fun branch member => goes branch (List.mem_cons_of_mem _ member)

end Front

namespace Program

/-- The lists of instructions that a program can go on from, each with its form, agree with what
the program does.
-/
structure Recognizes (program : Program) (state : List Nat → Form → Prop) : Prop where
  nonempty : ∀ {todo form}, state todo form → todo ≠ []
  agrees : ∀ {todo form}, state todo form → ∀ place,
    (program.front place todo).Agrees state form

theorem noPrefix_zero (text : List Char) : NoPrefix 0 text :=
  fun _ _ _ member => Language.notMem_zero _ member

/-- A run takes the longest prefix, or what was best before where there is none, by induction on
the text: what may follow the first character is known from the state.
-/
theorem Recognizes.run {program : Program} {state : List Nat → Form → Prop}
    (h : program.Recognizes state) {todo : List Nat} {form : Form} (hs : state todo form)
    (before : List Char) (best : Option Cursor) (after : List Char)
    : (∃ source rest, LongestPrefix form after source rest
        ∧ program.run before todo best after = some ⟨source.reverse ++ before, rest⟩)
      ∨ NoPrefix form after ∧ program.run before todo best after = best := by
  induction after generalizing before todo form best with
  | nil =>
      have matched := (h.agrees hs ⟨before, []⟩).matched
      rw [Program.run]
      split
      · rename_i hm
        exact .inl ⟨[], [], longestPrefix_nil (matched.1 hm), rfl⟩
      · rename_i hm
        exact .inr ⟨noPrefix_nil fun member => hm (matched.2 member), rfl⟩
  | cons c after ih =>
      obtain ⟨matched, next⟩ := h.agrees hs ⟨before, c :: after⟩
      obtain ⟨tail, quotient, goes⟩ := next c
      obtain ⟨best', hb⟩ : ∃ best', best'
          = if (program.front ⟨before, c :: after⟩ todo).matched then some ⟨before, c :: after⟩
            else best := ⟨_, rfl⟩
      have unfolded : program.run before todo best (c :: after)
          = if (program.front ⟨before, c :: after⟩ todo).next c = [] then best'
            else program.run (c :: before)
              ((program.front ⟨before, c :: after⟩ todo).next c) best' after := by
        rw [hb]
        rfl
      -- the run ends here, whether or not characters were tried
      have ends (none : NoPrefix tail after)
          (stays : program.run before todo best (c :: after) = best')
          : (∃ source rest, LongestPrefix form (c :: after) source rest
              ∧ program.run before todo best (c :: after) = some ⟨source.reverse ++ before, rest⟩)
            ∨ NoPrefix form (c :: after) ∧ program.run before todo best (c :: after) = best := by
        rw [stays, hb]
        split
        · rename_i hm
          exact .inl ⟨[], c :: after, longestPrefix_of_noPrefix quotient (matched.1 hm) none, rfl⟩
        · rename_i hm
          exact .inr ⟨none.cons quotient fun member => hm (matched.2 member), rfl⟩
      rcases goes with goes | ⟨stuck, rfl⟩
      · rw [if_neg (h.nonempty goes)] at unfolded
        rcases ih goes (c :: before) best' with ⟨source, rest, longest, hr⟩ | ⟨none, hr⟩
        · refine .inl ⟨c :: source, rest, longest.cons quotient, ?_⟩
          rw [unfolded, hr, List.reverse_cons, List.append_assoc, List.singleton_append]
        · exact ends none (unfolded.trans hr)
      · rw [if_pos stuck] at unfolded
        exact ends (noPrefix_zero after) unfolded

/-- A run depends on its instructions only through what they come to at the first place. -/
theorem run_congr {program : Program} {before after : List Char} {todo todo' : List Nat}
    {best : Option Cursor}
    (same : program.front ⟨before, after⟩ todo = program.front ⟨before, after⟩ todo')
    : program.run before todo best after = program.run before todo' best after := by
  cases after with
  | nil => simp only [run, same]
  | cons c after => simp only [run, same]

end Program

/-- A pattern takes the longest prefix of the form that its program recognises from the
instructions where the program is after the start of the text.
-/
theorem takes_match? {p : Pattern} {program : Program} {state : List Nat → Form → Prop}
    {todo : List Nat} {form : Form} (same : p.program = program) (h : program.Recognizes state)
    (hs : state todo form)
    (start : ∀ text, program.front ⟨[], text⟩ [0] = program.front ⟨[], text⟩ todo)
    : Taker.Takes p.match? form := by
  subst same
  intro text
  have first : p.program.matchAt? ⟨[], text⟩ = p.program.run [] todo none text :=
    Program.run_congr (start text)
  unfold match?
  rw [first]
  rcases h.run hs [] none text with ⟨source, rest, longest, hr⟩ | ⟨none, hr⟩
  · rw [hr]
    simpa [Found] using longest
  · rw [hr]
    exact none

end Gcode.Pattern
