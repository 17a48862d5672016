import Gcode.Pattern.CharSet

/-! Pattern expressions in their simplest form.
Expressions are put together by functions that leave out what has no effect, join neighbouring
literals and bring together what alternatives have in common.
-/

namespace Gcode.Pattern

/-- The sum of numbers. -/
def total : List Nat → Nat
  | [] => 0
  | n :: rest => n + total rest

theorem total_append (ns rest : List Nat) : total (ns ++ rest) = total ns + total rest := by
  induction ns with
  | nil => simp [total]
  | cons n ns ih => rw [List.cons_append, total, total, ih, Nat.add_assoc]

/-- A condition on a place in a text. -/
inductive Anchor where
  | textStart
  | textEnd
  | lineStart
  | lineEnd
  | wordEdge
  | notWordEdge
deriving DecidableEq

inductive Expr where
  | empty
  | literal (chars : List Char)
  | set (set : CharSet)
  | anchor (anchor : Anchor)
  /-- A group with its number; no two groups are the same. -/
  | capture (index : Nat) (body : Expr)
  | seq (first second : Expr)
  | alt (first second : Expr)
  /-- At least `least` times and at most `most` times; greedy repetitions go on for as long as
  they can, others stop as soon as they can.
  -/
  | rep (body : Expr) (least : Nat) (most : Option Nat) (greedy : Bool)
deriving DecidableEq

namespace Expr

/-! ### Sequences -/

/-- The parts of a sequence. -/
def items : Expr → List Expr
  | empty => []
  | seq first second => first.items ++ second.items
  | e => [e]

/-- The sequence of the given parts. -/
def ofItems : List Expr → Expr
  | [] => empty
  | [e] => e
  | e :: rest => seq e (ofItems rest)

/-- Puts a part before others; two literals become one. -/
def consItem : Expr → List Expr → List Expr
  | literal chars, literal more :: rest => literal (chars ++ more) :: rest
  | e, rest => e :: rest

/-- Expressions one after the other. -/
def inOrder (es : List Expr) : Expr :=
  ofItems ((es.flatMap items).foldr consItem [])

/-- The number of parts in sequences and alternatives. -/
def breadth : Expr → Nat
  | empty => 0
  | seq first second => first.breadth + second.breadth
  | alt first second => first.breadth + second.breadth + 1
  | _ => 1

theorem total_breadth_items (e : Expr) : total (e.items.map breadth) = e.breadth := by
  induction e <;> simp_all [items, breadth, total, total_append]

theorem breadth_pos_of_mem_items {e item : Expr} (h : item ∈ e.items) : 0 < item.breadth := by
  induction e with
  | empty => simp [items] at h
  | seq first second ih₁ ih₂ => exact (List.mem_append.1 h).elim ih₁ ih₂
  | _ => simp_all [items, breadth]

theorem breadth_ofItems (es : List Expr) : (ofItems es).breadth = total (es.map breadth) := by
  fun_induction ofItems es <;> simp_all [breadth, total]

/-! ### Sets -/

/-- A set with one character is a literal. -/
def ofSet (s : CharSet) : Expr :=
  match s.only? with
  | some c => literal [c]
  | none => set s

/-- The set of the one character of a literal. -/
def single? : Expr → Option CharSet
  | literal [c] => some (.single c)
  | _ => none

def set? : Expr → Option CharSet
  | set s => some s
  | _ => none

/-! ### Alternatives -/

/-- The alternatives of an expression. -/
def branches : Expr → List Expr
  | alt first second => first.branches ++ second.branches
  | e => [e]

/-- The alternatives of several expressions. -/
def choices (es : List Expr) : List Expr :=
  es.flatMap branches

/-- The expression with the given alternatives; where there are none it never matches. -/
def ofBranches : List Expr → Expr
  | [] => set .none
  | [e] => e
  | e :: rest => alt e (ofBranches rest)

theorem total_breadth_branches (e : Expr) : total (e.branches.map breadth) ≤ e.breadth := by
  induction e with
  | alt first second ih₁ ih₂ =>
      simp only [branches, List.map_append, total_append, breadth]
      omega
  | _ => simp [branches, total]

def isSequence : Expr → Bool
  | seq _ _ => true
  | _ => false

/-- The longest common start of two lists. -/
def commonStart : List Expr → List Expr → List Expr
  | a :: as, b :: bs => if a = b then a :: commonStart as bs else []
  | _, _ => []

/-- What the given lists of parts all start with. -/
def sharedStart : List (List Expr) → List Expr
  | [] => []
  | parts :: others => others.foldl commonStart parts

theorem sharedStart_nil (others : List (List Expr)) : sharedStart ([] :: others) = [] := by
  induction others with
  | nil => rfl
  | cons _ _ ih => simpa [sharedStart, commonStart] using ih

/-- An expression without its first parts. -/
def drop (count : Nat) (e : Expr) : Expr :=
  ofItems (e.items.drop count)

theorem breadth_drop_le (count : Nat) (e : Expr) : (e.drop count).breadth ≤ e.breadth := by
  have h := congrArg (fun es => total (es.map breadth)) (List.take_append_drop count e.items)
  simp only [List.map_append, total_append, total_breadth_items] at h
  rw [drop, breadth_ofItems]
  omega

theorem breadth_drop_lt {count : Nat} {e : Expr} (hc : 0 < count) (he : e.items ≠ [])
    : (e.drop count).breadth < e.breadth := by
  obtain ⟨count, rfl⟩ := Nat.exists_eq_add_of_lt hc
  rw [drop, breadth_ofItems, ← total_breadth_items e]
  cases hi : e.items with
  | nil => contradiction
  | cons item rest =>
      have hp : 0 < item.breadth := breadth_pos_of_mem_items (e := e) (by simp [hi])
      have h := congrArg (fun es => total (es.map breadth)) (List.take_append_drop count rest)
      simp only [List.map_append, total_append] at h
      simp only [Nat.zero_add, List.drop_succ_cons, List.map_cons, total]
      omega

/-- Without a shared start every round of `oneOf` has fewer parts. -/
theorem total_breadth_drop_lt {es : List Expr} {count : Nat} (hc : 0 < count)
    (hs : sharedStart ((choices es).map items) ≠ [])
    : total (((choices es).map (drop count)).map breadth) < total (es.map breadth) := by
  have hle (l : List Expr) : total ((l.map (drop count)).map breadth) ≤ total (l.map breadth) := by
    induction l with
    | nil => simp
    | cons e _ ih =>
        simp only [List.map_cons, total]
        exact Nat.add_le_add (breadth_drop_le count e) ih
  have hb : total ((choices es).map breadth) ≤ total (es.map breadth) := by
    clear hs
    induction es with
    | nil => simp [choices]
    | cons e _ ih =>
        simp only [choices, List.flatMap_cons, List.map_append, total_append, List.map_cons,
          total]
        exact Nat.add_le_add (total_breadth_branches e) ih
  refine Nat.lt_of_lt_of_le ?_ hb
  cases hl : choices es with
  | nil => simp [hl, sharedStart] at hs
  | cons e rest =>
      have he : e.items ≠ [] := fun h => hs (by rw [hl, List.map_cons, h, sharedStart_nil])
      simp only [List.map_cons, total]
      exact Nat.add_lt_add_of_lt_of_le (breadth_drop_lt hc he) (hle rest)

/-- Expressions to choose from, the first ones preferred. Single characters and sets become one
set, and what sequences start with in common comes before the choice.
-/
def oneOf (es : List Expr) : Expr :=
  if (choices es).length < 2 then ofBranches (choices es)
  else
    match (choices es).mapM single?, (choices es).mapM set? with
    | some sets, _ => ofSet (.unions sets)
    | none, some sets => ofSet (.unions sets)
    | none, none =>
        let start := sharedStart ((choices es).map items)
        if _ : (choices es).all isSequence ∧ start ≠ [] then
          inOrder (start ++ [oneOf ((choices es).map (drop start.length))])
        else ofBranches (choices es)
termination_by total (es.map breadth)
decreasing_by
  rename_i h
  exact total_breadth_drop_lt (List.length_pos_iff.2 h.2) h.2

/-! ### Repetitions -/

/-- Whether an expression matches the empty text only. -/
def alwaysEmpty : Expr → Bool
  | empty => true
  | literal _ => false
  | set _ => false
  | anchor _ => true
  | capture _ body => body.alwaysEmpty
  | seq first second => first.alwaysEmpty && second.alwaysEmpty
  | alt first second => first.alwaysEmpty && second.alwaysEmpty
  | rep body _ most _ => most.isSome && body.alwaysEmpty

/-- The number of characters of the shortest match, unless a part of the expression never
matches.
-/
def shortest? : Expr → Option Nat
  | empty => some 0
  | literal chars => some chars.length
  | set s => if s = .none then none else some 1
  | anchor _ => some 0
  | capture _ body => body.shortest?
  | seq first second => return (← first.shortest?) + (← second.shortest?)
  | alt first second => return min (← first.shortest?) (← second.shortest?)
  | rep body least _ _ => return least * (← body.shortest?)

/-- An expression repeated. The empty text need not be matched more than once. -/
def repeated (body : Expr) (least : Nat) (most : Option Nat) (greedy : Bool) : Expr :=
  let (least, most) :=
    if body.alwaysEmpty then (min least 1, some (min (most.getD 1) 1)) else (least, most)
  match least, most with
  | 0, some 0 => empty
  | 1, some 1 => body
  | least, most => rep body least most greedy

end Expr
end Gcode.Pattern
