import Gcode.Proofs.Text.Run
import Gcode.Text.Blank

/-! Blanks at the ends of texts and between their fields.
A text is spaced when its only blanks are single spaces and none ends it. What putting the blanks
of a text in order gives is spaced, and it leaves a spaced text as it is.
-/

namespace Gcode.Text

variable {blanks text : List Char}

/-- Texts without blanks at their ends, and those of blanks alone, are known after trimming. -/
theorem trim_append (hb : ∀ c ∈ blanks, isBlank c) (first : Stops isBlank text)
    (last : Stops isBlank text.reverse) : trim (blanks ++ text) = text := by
  have start : trimStart (blanks ++ text) = text := dropWhile_run hb first
  rw [trim, start, trimEnd, dropWhile_of_stops last, List.reverse_reverse]

theorem stops_of_solid {p : Char → Bool} (solid : ∀ c ∈ text, p c = false) : Stops p text :=
  fun c member => solid c (List.mem_of_mem_head? member)

/-- A text of blanks ends or goes on with one. -/
theorem ends_of_blanks (hb : ∀ c ∈ blanks, isBlank c) : Stops (!isBlank ·) blanks :=
  stops_of_solid fun c member => by simp [hb c member]

theorem ends_of_run (hb : ∀ c ∈ blanks, isBlank c) (some : blanks ≠ []) (text : List Char)
    : Stops (!isBlank ·) (blanks ++ text) := by
  obtain ⟨c, more, rfl⟩ := List.exists_cons_of_ne_nil some
  exact stops_cons.2 (by simp [hb c List.mem_cons_self])

/-- A text that ends or goes on with a blank does not go on with a character of another kind. -/
theorem stops_of_ends {p : Char → Bool} (solid : ∀ c, isBlank c → p c = false)
    (ends : Stops (!isBlank ·) text) : Stops p text :=
  fun c first => solid c (by simpa using ends c first)

theorem trim_append_of_solid (hb : ∀ c ∈ blanks, isBlank c)
    (solid : ∀ c ∈ text, isBlank c = false) : trim (blanks ++ text) = text :=
  trim_append hb (stops_of_solid solid)
    (stops_of_solid fun c member => solid c (List.mem_reverse.1 member))

theorem trim_of_solid (solid : ∀ c ∈ text, isBlank c = false) : trim text = text :=
  trim_append_of_solid (List.forall_mem_nil _) solid

/-- Trimming adds no characters. -/
theorem mem_of_mem_trim {c : Char} (member : c ∈ trim text) : c ∈ text := by
  have kept := (List.dropWhile_sublist isBlank).subset (List.mem_reverse.1 member)
  exact (List.dropWhile_sublist isBlank).subset (List.mem_reverse.1 kept)

/-- What is left after trimming has no blanks at its ends. -/
theorem stops_trim (text : List Char)
    : Stops isBlank (trim text) ∧ Stops isBlank (trim text).reverse := by
  have last : Stops isBlank (trim text).reverse := by
    rw [trim, trimEnd, List.reverse_reverse]
    exact stops_dropWhile isBlank _
  refine ⟨?_, last⟩
  have front : trim text <+: trimStart text :=
    List.reverse_suffix.1 (by simpa [trim, trimEnd] using List.dropWhile_suffix isBlank)
  obtain ⟨rest, split⟩ := front
  have start : Stops isBlank (trimStart text) := stops_dropWhile isBlank text
  rw [← split] at start
  cases kept : trim text with
  | nil => exact stops_nil
  | cons c more =>
      rw [kept, List.cons_append] at start
      exact stops_cons.2 (stops_cons.1 start)

theorem trim_trim (text : List Char) : trim (trim text) = trim text := by
  obtain ⟨first, last⟩ := stops_trim text
  exact trim_append (List.forall_mem_nil _) first last

-----------------------------------------------------------------------------------------
-- Spaced texts
-----------------------------------------------------------------------------------------

/-- Blanks are single spaces, and the last character is not blank. -/
def Spaced : List Char → Prop
  | [] => True
  | [c] => isBlank c = false
  | c :: d :: text => (isBlank c → c = ' ' ∧ isBlank d = false) ∧ Spaced (d :: text)

section Spaced

variable {c : Char} {front word : List Char}

theorem Spaced.of_cons (h : Spaced (c :: text)) : Spaced text := by
  cases text with
  | nil => trivial
  | cons d text => exact h.2

theorem Spaced.of_append (h : Spaced (front ++ text)) : Spaced text := by
  induction front with
  | nil => exact h
  | cons c front ih => exact ih h.of_cons

theorem Spaced.cons (solid : isBlank c = false) (h : Spaced text) : Spaced (c :: text) := by
  cases text with
  | nil => exact solid
  | cons d text => exact ⟨fun blank => by rw [solid] at blank; contradiction, h⟩

/-- A blank in a spaced text is a space, and what comes after it is not blank. -/
theorem Spaced.blank (h : Spaced (c :: text)) (blank : isBlank c)
    : c = ' ' ∧ text ≠ [] ∧ Stops isBlank text := by
  cases text with
  | nil =>
      have solid : isBlank c = false := h
      rw [blank] at solid
      contradiction
  | cons d text =>
      obtain ⟨space, next⟩ := h.1 blank
      exact ⟨space, by simp, stops_cons.2 next⟩

/-- The blanks of a spaced text are spaces. -/
theorem Spaced.eq_space (h : Spaced text) (member : c ∈ text) (blank : isBlank c) : c = ' ' := by
  induction text with
  | nil => contradiction
  | cons d text ih =>
      rcases List.mem_cons.1 member with rfl | member
      · exact (h.blank blank).1
      · exact ih h.of_cons member

/-- A spaced text is not made of blanks alone. -/
theorem Spaced.trimStart_ne_nil (h : Spaced text) (some : text ≠ []) : trimStart text ≠ [] := by
  obtain ⟨c, rest, rfl⟩ := List.exists_cons_of_ne_nil some
  unfold trimStart
  cases blank : isBlank c with
  | true =>
      obtain ⟨_, more, first⟩ := h.blank blank
      rw [List.dropWhile_cons_of_pos blank, dropWhile_of_stops first]
      exact more
  | false =>
      have first : Stops isBlank (c :: rest) := stops_cons.2 blank
      rw [dropWhile_of_stops first]
      exact some

theorem Spaced.stops_reverse (h : Spaced text) : Stops isBlank text.reverse := by
  induction text with
  | nil => exact stops_nil
  | cons c text ih =>
      cases text with
      | nil => exact stops_cons.2 h
      | cons d text =>
          have last := ih h.of_cons
          rw [List.reverse_cons]
          intro e member
          refine last e ?_
          simpa using member

/-- A spaced text can only lose blanks at its start. -/
theorem trim_of_spaced (h : Spaced text) : trim text = trimStart text := by
  have last : Spaced (trimStart text) := by
    rw [← List.takeWhile_append_dropWhile (p := isBlank) (l := text)] at h
    exact h.of_append
  rw [trim, trimEnd, dropWhile_of_stops last.stops_reverse, List.reverse_reverse]

theorem spaced_of_solid (solid : ∀ c ∈ text, isBlank c = false) : Spaced text := by
  induction text with
  | nil => trivial
  | cons c text ih =>
      exact (ih fun d member => solid d (List.mem_cons_of_mem _ member)).cons
        (solid c List.mem_cons_self)

/-- A word and a spaced text, with a space between them. -/
theorem Spaced.append (solid : ∀ c ∈ word, isBlank c = false) (some : text ≠ [])
    (first : Stops isBlank text) (h : Spaced text) : Spaced (word ++ ' ' :: text) := by
  induction word with
  | nil =>
      cases text with
      | nil => exact absurd rfl some
      | cons d text => exact ⟨fun _ => ⟨rfl, stops_cons.1 first⟩, h⟩
  | cons c word ih =>
      exact (ih fun d member => solid d (List.mem_cons_of_mem _ member)).cons
        (solid c List.mem_cons_self)

end Spaced

-----------------------------------------------------------------------------------------
-- Blanks in order
-----------------------------------------------------------------------------------------

section Fields

variable {c d : Char}

theorem fields_of_blank (blank : isBlank c) : fields (c :: text) = fields text := by
  rw [fields.eq_def]
  simp [blank]

/-- A field ends before a blank or with the text. -/
theorem fields_of_end (solid : isBlank c = false) (stop : Stops (!isBlank ·) text)
    : fields (c :: text) = [c] :: fields text := by
  rw [fields.eq_def]
  simp only [solid, Bool.false_eq_true, if_false]
  cases text with
  | nil => rfl
  | cons d text =>
      have blank : isBlank d = true := by simpa using stop
      cases found : fields (d :: text) with
      | nil => rfl
      | cons field rest => simp [blank]

/-- A field goes on until a blank. -/
theorem fields_before_solid (text : List Char) (solid : isBlank c = false) (next : isBlank d = false)
    : ∃ field more, fields (d :: text) = field :: more
        ∧ fields (c :: d :: text) = (c :: field) :: more := by
  have some : ∃ field more, fields (d :: text) = field :: more := by
    rw [fields.eq_def]
    simp only [next, Bool.false_eq_true, if_false]
    split
    · split <;> exact ⟨_, _, rfl⟩
    · exact ⟨_, _, rfl⟩
  obtain ⟨field, more, found⟩ := some
  refine ⟨field, more, found, ?_⟩
  rw [fields.eq_def]
  simp [solid, next, found]

/-- Induction on a text, character by character: what comes first is a blank, a character that
ends its field, or one that is in the field of the next one.
-/
@[elab_as_elim] theorem fields_induction {P : List Char → Prop} (nil : P [])
    (blank : ∀ c text, isBlank c → P text → P (c :: text))
    (ends : ∀ c text, isBlank c = false → Stops (!isBlank ·) text → P text → P (c :: text))
    (inside : ∀ c d text, isBlank c = false → isBlank d = false → P (d :: text)
      → P (c :: d :: text))
    (text : List Char) : P text := by
  induction text with
  | nil => exact nil
  | cons c text ih =>
      cases first : isBlank c with
      | true => exact blank c text first ih
      | false =>
          cases text with
          | nil => exact ends c [] first stops_nil ih
          | cons d text =>
              cases next : isBlank d with
              | true => exact ends c (d :: text) first (stops_cons.2 (by simp [next])) ih
              | false => exact inside c d text first next ih

/-- Fields are not empty and have no blanks. -/
theorem of_mem_fields {field : List Char} (member : field ∈ fields text)
    : field ≠ [] ∧ ∀ c ∈ field, isBlank c = false := by
  induction text using fields_induction generalizing field with
  | nil => contradiction
  | blank c text blank ih => exact ih (by rwa [fields_of_blank blank] at member)
  | ends c text solid stop ih =>
      rw [fields_of_end solid stop] at member
      rcases List.mem_cons.1 member with rfl | member
      · exact ⟨by simp, List.forall_mem_singleton.2 solid⟩
      · exact ih member
  | inside c d text solid next ih =>
      obtain ⟨first, more, found, same⟩ := fields_before_solid text solid next
      rw [same] at member
      rw [found] at ih
      rcases List.mem_cons.1 member with rfl | member
      · exact ⟨by simp, List.forall_mem_cons.2 ⟨solid, (ih List.mem_cons_self).2⟩⟩
      · exact ih (List.mem_cons_of_mem _ member)

/-- The fields of a text are its characters that are not blank, in order. -/
theorem flatten_fields (text : List Char) : (fields text).flatten = text.filter (!isBlank ·) := by
  induction text using fields_induction with
  | nil => rfl
  | blank c text blank ih =>
      rw [fields_of_blank blank, ih, List.filter_cons_of_neg (by simpa using blank)]
  | ends c text solid stop ih =>
      rw [fields_of_end solid stop, List.filter_cons_of_pos (by simpa using solid), ← ih]
      rfl
  | inside c d text solid next ih =>
      obtain ⟨field, more, found, same⟩ := fields_before_solid text solid next
      rw [List.filter_cons_of_pos (by simpa using solid), ← ih, same, found]
      rfl

/-- Blanks at the end of a text are in no field. -/
theorem fields_append_blanks (hb : ∀ c ∈ blanks, isBlank c)
    : fields (text ++ blanks) = fields text := by
  induction text using fields_induction with
  | nil =>
      rw [List.nil_append]
      induction blanks with
      | nil => rfl
      | cons b blanks ih =>
          obtain ⟨blank, others⟩ := List.forall_mem_cons.1 hb
          rw [fields_of_blank blank, ih others]
  | blank c text blank ih =>
      rw [List.cons_append, fields_of_blank blank, fields_of_blank blank, ih]
  | ends c text solid stop ih =>
      have stop' : Stops (!isBlank ·) (text ++ blanks) := by
        cases text with
        | nil =>
            intro b member
            simpa using hb b (List.mem_of_mem_head? member)
        | cons d text => exact stop
      rw [List.cons_append, fields_of_end solid stop', fields_of_end solid stop, ih]
  | inside c d text solid next ih =>
      obtain ⟨field, more, found, same⟩ := fields_before_solid text solid next
      obtain ⟨field', more', found', same'⟩ := fields_before_solid (text ++ blanks) solid next
      rw [List.cons_append, List.cons_append, same, same']
      rw [List.cons_append, found', found] at ih
      cases ih
      rfl

theorem normalize_append_blanks (hb : ∀ c ∈ blanks, isBlank c)
    : normalize (text ++ blanks) = normalize text := by
  rw [normalize, fields_append_blanks hb, normalize]

theorem intercalate_cons {separator : Char} (field : List Char) (more : List (List Char))
    : [separator].intercalate (field :: more)
      = field ++ if more = [] then [] else separator :: [separator].intercalate more := by
  cases more with
  | nil => simp [List.intercalate]
  | cons next more => simp [List.intercalate]

/-- What stands before the last text does not depend on it. -/
theorem intercalate_concat (texts : List (List Char)) (last : List Char)
    : [' '].intercalate (texts ++ [last]) = texts.flatMap (· ++ [' ']) ++ last := by
  induction texts with
  | nil => simp [List.intercalate]
  | cons text texts ih =>
      rw [List.cons_append, intercalate_cons, if_neg (by simp), ih]
      simp

/-- Texts that are joined first and then joined with others are joined as all of them are. -/
theorem intercalate_intercalate {texts : List (List Char)} (some : texts ≠ [])
    (more : List (List Char))
    : [' '].intercalate ([' '].intercalate texts :: more) = [' '].intercalate (texts ++ more) := by
  induction texts with
  | nil => contradiction
  | cons text texts ih =>
      cases texts with
      | nil => simp [List.intercalate]
      | cons next texts =>
          have whole : [' '].intercalate (text :: next :: texts)
              = text ++ ' ' :: [' '].intercalate (next :: texts) := by
            rw [intercalate_cons, if_neg (by simp)]
          have rest : [' '].intercalate (text :: next :: texts ++ more)
              = text ++ ' ' :: [' '].intercalate (next :: texts ++ more) := by
            rw [List.cons_append, intercalate_cons, if_neg (by simp)]
          rw [rest, ← ih (by simp), whole, intercalate_cons (text ++ _) more,
            intercalate_cons ([' '].intercalate (next :: texts)) more, List.append_assoc,
            List.cons_append]

/-- Nothing is left of a text without fields, which is one of blanks alone. -/
theorem normalize_eq_nil_iff : normalize text = [] ↔ ∀ c ∈ text, isBlank c := by
  have none : fields text = [] ↔ text.filter (!isBlank ·) = [] := by
    rw [← flatten_fields, List.flatten_eq_nil_iff]
    constructor
    · intro empty field member
      rw [empty] at member
      contradiction
    · intro all
      refine List.eq_nil_iff_forall_not_mem.2 fun field member => ?_
      exact (of_mem_fields member).1 (all field member)
  have joined : normalize text = [] ↔ fields text = [] := by
    rw [normalize]
    cases found : fields text with
    | nil => simp [List.intercalate]
    | cons field more =>
        have some : field ≠ [] := (of_mem_fields (found ▸ List.mem_cons_self)).1
        simp [intercalate_cons, some]
  rw [joined, none, List.filter_eq_nil_iff]
  simp

/-- Fields with single spaces between them are spaced. -/
theorem spaced_intercalate {words : List (List Char)}
    (solid : ∀ word ∈ words, word ≠ [] ∧ ∀ c ∈ word, isBlank c = false)
    : Spaced ([' '].intercalate words) := by
  induction words with
  | nil => trivial
  | cons word words ih =>
      obtain ⟨⟨some, first⟩, others⟩ := List.forall_mem_cons.1 solid
      rw [intercalate_cons]
      cases words with
      | nil => simpa using spaced_of_solid first
      | cons next words =>
          obtain ⟨c, more, rfl⟩ := List.exists_cons_of_ne_nil (others next List.mem_cons_self).1
          have start : Stops isBlank ([' '].intercalate ((c :: more) :: words)) := by
            rw [intercalate_cons, List.cons_append, stops_cons]
            exact (others _ List.mem_cons_self).2 c List.mem_cons_self
          rw [if_neg (by simp)]
          refine Spaced.append first ?_ start (ih others)
          rw [intercalate_cons]
          simp

/-- What putting the blanks of a text in order gives is spaced. -/
theorem spaced_normalize (text : List Char) : Spaced (normalize text) :=
  spaced_intercalate fun _ => of_mem_fields

theorem mem_intercalate {separator : Char} {words : List (List Char)}
    (member : c ∈ [separator].intercalate words) : c = separator ∨ ∃ word ∈ words, c ∈ word := by
  induction words with
  | nil => contradiction
  | cons word words ih =>
      rw [intercalate_cons] at member
      rcases List.mem_append.1 member with inside | member
      · exact .inr ⟨word, List.mem_cons_self, inside⟩
      · split at member
        · contradiction
        · rcases List.mem_cons.1 member with between | member
          · exact .inl between
          · rcases ih member with between | ⟨other, isWord, inside⟩
            · exact .inl between
            · exact .inr ⟨other, List.mem_cons_of_mem _ isWord, inside⟩

/-- Putting blanks in order brings no characters into a text but spaces. -/
theorem mem_normalize (member : c ∈ normalize text) : c = ' ' ∨ c ∈ text := by
  rcases mem_intercalate member with space | ⟨field, isField, inside⟩
  · exact .inl space
  · have kept : c ∈ (fields text).flatten := List.mem_flatten.2 ⟨field, isField, inside⟩
    rw [flatten_fields] at kept
    exact .inr (List.mem_filter.1 kept).1

/-- Putting the blanks of a spaced text in order only takes a blank at its start away. -/
theorem normalize_of_spaced (h : Spaced text) : normalize text = trimStart text := by
  induction text using fields_induction with
  | nil => rfl
  | blank c text blank ih =>
      rw [normalize, fields_of_blank blank, trimStart, List.dropWhile_cons_of_pos blank]
      exact ih h.of_cons
  | ends c text solid stop ih =>
      have rest := ih h.of_cons
      have first : Stops isBlank (c :: text) := stops_cons.2 solid
      have whole : trimStart (c :: text) = c :: text := by rw [trimStart, dropWhile_of_stops first]
      rw [normalize, fields_of_end solid stop, intercalate_cons, ← normalize, rest, whole]
      cases text with
      | nil => rfl
      | cons d text =>
          obtain ⟨space, some, start⟩ := h.of_cons.blank (by simpa using stop)
          have same : trimStart (d :: text) = text := by
            rw [trimStart, List.dropWhile_cons_of_pos (by simpa using stop), dropWhile_of_stops start]
          have others : fields (d :: text) ≠ [] := by
            intro none
            rw [normalize, none, same] at rest
            exact some rest.symm
          rw [if_neg others, same, space]
          rfl
  | inside c d text solid next ih =>
      have rest := ih h.of_cons
      have first : Stops isBlank (c :: d :: text) := stops_cons.2 solid
      have start : Stops isBlank (d :: text) := stops_cons.2 next
      obtain ⟨field, more, found, same⟩ := fields_before_solid text solid next
      rw [normalize, trimStart, dropWhile_of_stops start, found, intercalate_cons] at rest
      rw [normalize, trimStart, dropWhile_of_stops first, same, intercalate_cons, List.cons_append,
        rest]

end Fields

end Gcode.Text
