import Gcode.Proofs.HashTable
import Gcode.Proofs.Word.ReadBack
import Mathlib.Data.List.Induction

/-! The order of words.
No word that a program comes by holds NaN or an infinity: building a word and reading one both make
sure of that, whatever the dialect is. Among such words equality, the order and the hashed data fit
together, so sorting and look-up in hash tables agree with equality.
-/

namespace Gcode

open Number

-----------------------------------------------------------------------------------------
-- Lists in order
-----------------------------------------------------------------------------------------

section Lists

variable {α : Type} {cmp : α → α → Ordering} [Std.TransCmp cmp] {l : List α}

/-- A list in order falls into what is before an element, at its place and after it. -/
theorem exists_split_of_pairwise (sorted : l.Pairwise fun b c => (cmp b c).isLE) (a : α)
    : ∃ before after, l = before ++ (l.filter fun b => cmp b a == .eq) ++ after
        ∧ (∀ b ∈ before, cmp b a = .lt) ∧ ∀ b ∈ after, cmp b a = .gt := by
  induction l with
  | nil => exact ⟨[], [], rfl, List.forall_mem_nil _, List.forall_mem_nil _⟩
  | cons b l ih =>
      obtain ⟨least, sorted⟩ := List.pairwise_cons.1 sorted
      obtain ⟨before, after, split, low, high⟩ := ih sorted
      cases place : cmp b a with
      | lt =>
          rw [List.filter_cons_of_neg (by simp [place])]
          exact ⟨b :: before, after, by rw [List.cons_append, List.cons_append, ← split],
            List.forall_mem_cons.2 ⟨place, low⟩, high⟩
      | eq =>
          have none : before = [] := by
            refine List.eq_nil_iff_forall_not_mem.2 fun c member => ?_
            have le : (cmp b c).isLE := least c (by rw [split]; simp [member])
            rw [Std.TransCmp.congr_left place, Std.OrientedCmp.gt_iff_lt.2 (low c member)] at le
            contradiction
          rw [List.filter_cons_of_pos (by simp [place])]
          refine ⟨[], after, ?_, List.forall_mem_nil _, high⟩
          rw [none] at split
          rw [List.nil_append, List.cons_append, ← List.nil_append (l.filter _), ← split]
      | gt =>
          have all : ∀ c ∈ b :: l, cmp c a = .gt := by
            refine List.forall_mem_cons.2 ⟨place, fun c member => ?_⟩
            have ge : (cmp c b).isGE := Std.OrientedCmp.isGE_iff_isLE.2 (least c member)
            exact Std.TransCmp.gt_of_isGE_of_gt ge place
          refine ⟨[], b :: l, ?_, List.forall_mem_nil _, all⟩
          rw [List.filter_eq_nil_iff.2 fun c member => by simp [all c member]]
          rfl

theorem isLE_total (a b : α) : (cmp a b).isLE || (cmp b a).isLE := by
  have swap : cmp a b = (cmp b a).swap := Std.OrientedCmp.eq_swap
  rw [swap]
  cases cmp b a <;> rfl

/-- What is at one place is kept in the order in which it comes. -/
theorem filter_mergeSort (l : List α) (a : α)
    : (l.mergeSort fun b c => (cmp b c).isLE).filter (fun b => cmp b a == .eq)
      = l.filter fun b => cmp b a == .eq := by
  have same : (l.filter fun b => cmp b a == .eq).Pairwise fun b c => (cmp b c).isLE := by
    refine List.pairwise_of_forall_mem_list fun b left c right => ?_
    simp only [List.mem_filter, beq_iff_eq] at left right
    rw [Std.TransCmp.congr_left left.2, Std.OrientedCmp.eq_symm right.2]
    rfl
  have kept := (List.sublist_mergeSort (fun _ _ _ => Std.TransCmp.isLE_trans) isLE_total same
    List.filter_sublist).filter fun b => cmp b a == .eq
  rw [List.filter_filter] at kept
  simp only [Bool.and_self] at kept
  refine (kept.eq_of_length ?_).symm
  exact ((List.mergeSort_perm l _).filter _).length_eq.symm

end Lists

-----------------------------------------------------------------------------------------
-- Values in order
-----------------------------------------------------------------------------------------

namespace Value

variable {kind : ValueKind} {v w value : Value}

/-- Numbers of a word are finite. -/
def IsFinite : Value → Prop
  | .real x => x.isFinite
  | _ => True

theorem OfKind.isFinite (h : OfKind kind value) : value.IsFinite := by
  cases h with
  | integer n => trivial
  | real finite => exact finite
  | text trimmed => trivial

/-- What numbers are ordered by: an integer itself, or the units of a real with the sign. -/
def size : Value → Int
  | .integer n => n.toInt
  | .real x => x.signedUnits?.getD 0
  | .text _ => 0

/-- What texts are ordered by. -/
def characters : Value → List Char
  | .text t => t
  | _ => []

/-- The order by rank, by size and by characters, in which every two values are in order. -/
def order : Value → Value → Ordering :=
  compareLex (compareOn (·.kind.rank)) (compareLex (compareOn size) (compareOn characters))

instance : Std.TransCmp order :=
  inferInstanceAs (Std.TransCmp (compareLex _ (compareLex _ _)))

/-- Finite values are compared by that order. -/
theorem compare?_eq_order (left : v.IsFinite) (right : w.IsFinite)
    : v.compare? w = some (order v w) := by
  cases v with
  | integer m =>
      cases w with
      | integer n => simp [compare?, order, compareLex, compareOn, kind, size, characters]
      | real | text => rfl
  | real x =>
      cases w with
      | real y =>
          obtain ⟨m, hx⟩ := Binary64.exists_signedUnits left
          obtain ⟨n, hy⟩ := Binary64.exists_signedUnits right
          simp [compare?, Binary64.compare?, hx, hy, order, compareLex, compareOn, kind, size,
            characters]
      | integer | text => rfl
  | text s =>
      cases w with
      | text t => simp [compare?, order, compareLex, compareOn, kind, size, characters]
      | integer | real => rfl

/-- Finite values have the same place in the order when they are equal. -/
theorem order_eq_eq_iff (left : v.IsFinite) (right : w.IsFinite) : order v w = .eq ↔ v.eq w := by
  have parts : order v w = .eq
      ↔ v.kind.rank = w.kind.rank ∧ v.size = w.size ∧ v.characters = w.characters := by
    simp [order, compareLex, compareOn, Ordering.then_eq_eq]
  rw [parts]
  cases v with
  | integer m =>
      cases w <;> simp [kind, ValueKind.rank, size, characters, Value.eq, Int64.toInt_inj]
  | real x =>
      cases w with
      | real y =>
          obtain ⟨m, hx⟩ := Binary64.exists_signedUnits left
          obtain ⟨n, hy⟩ := Binary64.exists_signedUnits right
          have equal : Value.eq (.real x) (.real y) ↔ n = m := by
            simp [Value.eq, Binary64.eq_iff, hx, hy]
          rw [equal, eq_comm (a := n)]
          simp [kind, size, characters, hx, hy]
      | integer | text => simp [kind, ValueKind.rank, Value.eq]
  | text s => cases w <;> simp [kind, ValueKind.rank, size, characters, Value.eq]

end Value

-----------------------------------------------------------------------------------------
-- Words in order
-----------------------------------------------------------------------------------------

namespace Word

variable {v w word : Word} {words : List Word}

/-- Words as programs come by them: built from a letter and a value, read as the only word of a
text, and yielded for a text that may have an error after them. The settings may be any.
-/
inductive Obtained : Word → Prop where
  | ofValue {settings : Settings} {c : Char} {value : Value} {word : Word}
    (built : Word.ofValue settings c value = .ok word) : Obtained word
  | readWord {settings : Settings} {text : List Char} {word : Word}
    (read : Gcode.readWord settings text = .ok word) : Obtained word
  | scanWords {settings : Settings} {text : List Char} {word : Word}
    (member : word ∈ (Gcode.scanWords settings text).1) : Obtained word

theorem isFinite_of_mem_scanWords {settings : Settings} {text : List Char}
    (member : word ∈ (scanWords settings text).1) : word.value.IsFinite := by
  obtain ⟨piece, after, rfl, reads⟩ := exists_piece_of_mem_scanWords member
  exact (Value.ofKind_of_read? reads.value).isFinite

theorem Obtained.isFinite (h : Obtained word) : word.value.IsFinite := by
  cases h with
  | ofValue built => exact (built_of_ofValue built).value.isFinite
  | readWord read =>
      have words := scanWords_of_readWords (readWord_eq_ok_iff.1 read)
      exact isFinite_of_mem_scanWords (by rw [words]; exact List.mem_singleton_self _)
  | scanWords member => exact isFinite_of_mem_scanWords member

/-- The order by letter and then by value, in which every two words are in order. -/
def order : Word → Word → Ordering :=
  compareLex (compareOn (·.letter.char)) fun v w => Value.order v.value w.value

instance : Std.TransCmp fun v w : Word => Value.order v.value w.value where
  eq_swap := Std.OrientedCmp.eq_swap
  isLE_trans := Std.TransCmp.isLE_trans

instance : Std.TransCmp order :=
  inferInstanceAs (Std.TransCmp (compareLex _ _))

theorem compare_eq_order (left : v.value.IsFinite) (right : w.value.IsFinite)
    : v.compare w = order v w := by
  rw [Word.compare, Value.compare?_eq_order left right]
  rfl

theorem order_eq_eq_iff (left : v.value.IsFinite) (right : w.value.IsFinite)
    : order v w = .eq ↔ v.eq w := by
  have letters : v.letter.char = w.letter.char ↔ v.letter = w.letter := by
    cases v.letter
    cases w.letter
    simp
  rw [eq_iff, ← Value.order_eq_eq_iff left right, ← letters]
  simp [order, compareLex, compareOn, Ordering.then_eq_eq]

/-- What makes equality, the order and the hashed data of the words under a condition agree:
equality is an equivalence relation, the order is a total order up to equality, and equal words have
equal data.
-/
structure LawfulOn (condition : Word → Prop) : Prop where
  isFinite {w : Word} : condition w → w.value.IsFinite
  eq_refl {w : Word} : condition w → w.eq w
  eq_symm {v w : Word} : condition v → condition w → v.eq w → w.eq v
  eq_trans {u v w : Word}
    : condition u → condition v → condition w → u.eq v → v.eq w → u.eq w
  compare_swap {v w : Word} : condition v → condition w → v.compare w = (w.compare v).swap
  total {v w : Word} : condition v → condition w → (v.compare w).isLE ∨ (w.compare v).isLE
  antisymm {v w : Word}
    : condition v → condition w → (v.compare w).isLE → (w.compare v).isLE → v.eq w
  trans {u v w : Word}
    : condition u → condition v → condition w → (u.compare v).isLE → (v.compare w).isLE
        → (u.compare w).isLE
  compare_eq_iff {v w : Word} : condition v → condition w → (v.compare w = .eq ↔ v.eq w)
  digest_eq {v w : Word} : condition v → condition w → v.eq w → v.digest = w.digest

/-- The laws hold where all values are finite: these words are in the order in which every two words
are.
-/
theorem lawfulOn_of_isFinite {condition : Word → Prop}
    (finite : ∀ {w : Word}, condition w → w.value.IsFinite) : LawfulOn condition where
  isFinite := finite
  eq_refl h := (order_eq_eq_iff (finite h) (finite h)).1 Std.ReflCmp.compare_self
  eq_symm _ _ := Word.eq_symm
  eq_trans _ _ _ := Word.eq_trans
  compare_swap left right := by
    rw [compare_eq_order (finite left) (finite right),
      compare_eq_order (finite right) (finite left)]
    exact Std.OrientedCmp.eq_swap
  total {v w} left right := by
    rw [compare_eq_order (finite left) (finite right),
      compare_eq_order (finite right) (finite left)]
    exact Bool.or_eq_true_iff.1 (isLE_total v w)
  antisymm left right le ge := by
    rw [compare_eq_order (finite left) (finite right)] at le
    rw [compare_eq_order (finite right) (finite left)] at ge
    exact (order_eq_eq_iff (finite left) (finite right)).1 (Std.OrientedCmp.isLE_antisymm le ge)
  trans first second third le le' := by
    rw [compare_eq_order (finite first) (finite second)] at le
    rw [compare_eq_order (finite second) (finite third)] at le'
    rw [compare_eq_order (finite first) (finite third)]
    exact Std.TransCmp.isLE_trans le le'
  compare_eq_iff left right := by
    rw [compare_eq_order (finite left) (finite right)]
    exact order_eq_eq_iff (finite left) (finite right)
  digest_eq _ _ := digest_eq_of_eq

-----------------------------------------------------------------------------------------
-- Sorting
-----------------------------------------------------------------------------------------

/-- Sorting finite words is sorting in the order in which every two words are. -/
theorem sort_eq_mergeSort (finite : ∀ v ∈ words, v.value.IsFinite)
    : sort words = words.mergeSort fun v w => (order v w).isLE := by
  have same (v : Word) (left : v ∈ words) (w : Word) (right : w ∈ words)
      : (order v w).isLE = (v.compare w).isLE :=
    congrArg Ordering.isLE (compare_eq_order (finite v left) (finite w right)).symm
  have mapped := List.map_mergeSort (f := id) (s := fun v w => (Word.compare v w).isLE) same
  rw [List.map_id, List.map_id] at mapped
  exact mapped.symm

theorem mem_sort : v ∈ sort words ↔ v ∈ words :=
  (List.mergeSort_perm words _).mem_iff

/-- Words that are equal to a word are next to each other after sorting, in the order in which they
came, with the smaller words before them and the larger ones after them.
-/
theorem exists_sort_eq_append (finite : ∀ v ∈ words, v.value.IsFinite) (given : w.value.IsFinite)
    : ∃ before after, sort words = before ++ (words.filter fun v => v.eq w) ++ after
        ∧ (∀ v ∈ before, v.compare w = .lt) ∧ ∀ v ∈ after, v.compare w = .gt := by
  have sorted : (words.mergeSort fun v w => (order v w).isLE).Pairwise
      fun v w => (order v w).isLE :=
    List.pairwise_mergeSort (fun _ _ _ => Std.TransCmp.isLE_trans) isLE_total words
  obtain ⟨before, after, split, low, high⟩ := exists_split_of_pairwise sorted w
  have equal : (words.filter fun v => order v w == .eq) = words.filter fun v => v.eq w := by
    refine List.filter_congr fun v member => ?_
    rw [Bool.eq_iff_iff, beq_iff_eq]
    exact order_eq_eq_iff (finite v member) given
  rw [filter_mergeSort, equal, ← sort_eq_mergeSort finite] at split
  have placed (v : Word) (member : v ∈ sort words) : v.compare w = order v w :=
    compare_eq_order (finite v (mem_sort.1 member)) given
  refine ⟨before, after, split, fun v member => ?_, fun v member => ?_⟩
  · rw [placed v (by rw [split]; simp [member]), low v member]
  · rw [placed v (by rw [split]; simp [member]), high v member]

-----------------------------------------------------------------------------------------
-- Hash tables
-----------------------------------------------------------------------------------------

theorem respects_digest (hash : Letter × Digest → Nat)
    : HashTable.Respects (fun word : Word => hash word.digest) Word.eq where
  symm := Word.eq_symm
  trans := Word.eq_trans
  hash same := congrArg hash (digest_eq_of_eq same)

/-- Words that go into a hash set are the first of all words that are equal to each other. -/
theorem addKeys_eq_distinct (hash : Letter × Digest → Nat) (words : List Word)
    : HashTable.addKeys (fun word => hash word.digest) Word.eq .empty words = distinct words :=
  HashTable.append_addKeys (respects_digest hash) [] .empty (fun _ => rfl) words

theorem distinct_append_singleton (words : List Word) (w : Word)
    : distinct (words ++ [w])
      = if (distinct words).any (·.eq w) then distinct words else distinct words ++ [w] := by
  simp [distinct, List.foldl_append]

/-- The words that are kept are some of the given ones, no two of them are equal, and every given
word that is equal to itself is equal to one of them. By induction on the words, from the last one.
-/
theorem distinct_spec (words : List Word)
    : (distinct words).Sublist words
      ∧ (distinct words).Pairwise (fun v w => ¬ v.eq w)
      ∧ ∀ w ∈ words, w.eq w → ∃ v ∈ distinct words, v.eq w := by
  induction words using List.reverseRecOn with
  | nil => simp [distinct]
  | append_singleton words w ih =>
      obtain ⟨sub, apart, covered⟩ := ih
      rw [distinct_append_singleton]
      split
      · rename_i found
        refine ⟨sub.trans (List.sublist_append_left _ _), apart, fun u member same => ?_⟩
        rcases List.mem_append.1 member with earlier | last
        · exact covered u earlier same
        · obtain rfl := List.mem_singleton.1 last
          exact List.any_eq_true.1 found
      · rename_i absent
        refine ⟨sub.append (List.Sublist.refl _), ?_, fun u member same => ?_⟩
        · refine List.pairwise_append.2 ⟨apart, List.pairwise_singleton _ _, ?_⟩
          intro v left u right
          obtain rfl := List.mem_singleton.1 right
          exact fun equal => absent (List.any_eq_true.2 ⟨v, left, equal⟩)
        · rcases List.mem_append.1 member with earlier | last
          · obtain ⟨v, kept, equal⟩ := covered u earlier same
            exact ⟨v, List.mem_append_left _ kept, equal⟩
          · obtain rfl := List.mem_singleton.1 last
            exact ⟨u, List.mem_append_right _ (List.mem_singleton_self _), same⟩

/-- A word that was put into a hash table is found there. -/
theorem exists_find?_ofEntries {ν : Type} (hash : Letter × Digest → Nat)
    {entries : List (Word × ν)} {entry : Word × ν} (member : entry ∈ entries)
    (same : entry.1.eq w)
    : ∃ value, (HashTable.ofEntries (fun word => hash word.digest) Word.eq entries).find?
        (fun word => hash word.digest) Word.eq w = some value := by
  rw [HashTable.find?_ofEntries (respects_digest hash), ← Option.isSome_iff_exists,
    Option.isSome_map, List.find?_isSome]
  exact ⟨entry, List.mem_reverse.2 member, same⟩

-----------------------------------------------------------------------------------------
-- Words that programs come by
-----------------------------------------------------------------------------------------

/-- Words that programs come by can be compared across dialects and precisions: their numbers are
finite, equality is an equivalence relation, the order is total up to equality, also between kinds,
and equal words have equal hashed data. So sorting puts equal words next to each other and keeps
their order, a hash set keeps one of all words that are equal, and a hash table has for a word what
was put in last for an equal one, whatever the hashes are.
-/
theorem lawful_obtained
    : LawfulOn Obtained
      ∧ (∀ words : List Word, (∀ v ∈ words, Obtained v)
          → (sort words).Perm words
            ∧ (∀ w, Obtained w
                → ∃ before after, sort words = before ++ (words.filter fun v => v.eq w) ++ after
                  ∧ (∀ v ∈ before, v.compare w = .lt) ∧ ∀ v ∈ after, v.compare w = .gt)
            ∧ (∀ hash : Letter × Digest → Nat,
                HashTable.addKeys (fun word => hash word.digest) Word.eq .empty words
                  = distinct words)
            ∧ (distinct words).Sublist words
            ∧ (distinct words).Pairwise (fun v w => ¬ v.eq w)
            ∧ ∀ w ∈ words, ∃ v ∈ distinct words, v.eq w)
      ∧ ∀ (ν : Type) (hash : Letter × Digest → Nat) (entries : List (Word × ν)) (w : Word),
          (HashTable.ofEntries (fun word => hash word.digest) Word.eq entries).find?
              (fun word => hash word.digest) Word.eq w
            = (entries.reverse.find? fun entry => entry.1.eq w).map Prod.snd
          ∧ (Obtained w → w ∈ entries.map Prod.fst
            → ∃ value, (HashTable.ofEntries (fun word => hash word.digest) Word.eq entries).find?
                (fun word => hash word.digest) Word.eq w = some value) := by
  have lawful : LawfulOn Obtained := lawfulOn_of_isFinite Obtained.isFinite
  refine ⟨lawful, ?_, ?_⟩
  · intro words obtained
    have finite (v : Word) (member : v ∈ words) : v.value.IsFinite := (obtained v member).isFinite
    obtain ⟨sub, apart, covered⟩ := distinct_spec words
    refine ⟨List.mergeSort_perm _ _, fun w given => exists_sort_eq_append finite given.isFinite,
      fun hash => addKeys_eq_distinct hash words, sub, apart, ?_⟩
    exact fun w member => covered w member (lawful.eq_refl (obtained w member))
  · intro ν hash entries w
    refine ⟨HashTable.find?_ofEntries (respects_digest hash) entries w, ?_⟩
    intro given member
    obtain ⟨entry, inside, rfl⟩ := List.mem_map.1 member
    exact exists_find?_ofEntries hash inside (lawful.eq_refl given)

/-- A word that was built with a zero and one that was read with more places and a negative zero. -/
theorem lawful_obtained_zeros
    : ∃ v w, ofValue {} 'X' (.real (.zero false)) = .ok v
        ∧ readWord { xyDecimals := ⟨5, by decide⟩ } "x-0".toList = .ok w
        ∧ v.eq w ∧ v.compare w = .eq ∧ v.digest = w.digest ∧ sort [w, v] = [w, v] := by
  have accepted : (ofValue {} 'X' (.real (.zero false))).isOk := by decide +kernel
  have accepted' : (readWord { xyDecimals := ⟨5, by decide⟩ } "x-0".toList).isOk := by
    decide +kernel
  obtain ⟨v, built⟩ := exists_of_isOk accepted
  obtain ⟨w, read⟩ := exists_of_isOk accepted'
  have same : (ofValue {} 'X' (.real (.zero false))).toOption.any (fun v =>
      (readWord { xyDecimals := ⟨5, by decide⟩ } "x-0".toList).toOption.any v.eq) := by
    decide +kernel
  rw [built, read] at same
  have equal : v.eq w := same
  obtain ⟨lawful, sorting, _⟩ := lawful_obtained
  have left : Obtained v := .ofValue built
  have right : Obtained w := .readWord read
  obtain ⟨perm, places, _⟩ := sorting [w, v] (by simp [left, right])
  obtain ⟨before, after, split, _, _⟩ := places w right
  have all : ([w, v].filter fun u => u.eq w) = [w, v] := by simp [lawful.eq_refl right, equal]
  have lengths := perm.length_eq
  rw [split, all] at lengths
  obtain ⟨rfl, rfl⟩ : before = [] ∧ after = [] := by
    simp only [List.length_append, List.length_cons, List.length_nil] at lengths
    constructor <;> exact List.length_eq_zero_iff.1 (by omega)
  refine ⟨v, w, built, read, equal, (lawful.compare_eq_iff left right).2 equal,
    lawful.digest_eq left right equal, ?_⟩
  rw [split, all]
  rfl

end Word
end Gcode
