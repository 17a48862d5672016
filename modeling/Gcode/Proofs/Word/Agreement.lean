import Gcode.Proofs.Word.Scan

/-! Scans that agree.
They yield the same words, and then both end without an error or both with errors of one kind. Texts
that agree step by step have scans that agree.
-/

namespace Gcode

/-- Results of scans agree: the words are the same, and if one has an error, the other has one of
the same kind.
-/
structure ScansAgree (left right : List Word × Option Error) : Prop where
  words : left.1 = right.1
  kinds : left.2.map Error.kind = right.2.map Error.kind

/-- Steps agree: they take one word and go on with related texts, or end in the same way. -/
inductive Step.Agree (related : List Char → List Char → Prop) : Step → Step → Prop where
  | word (word : Word) {left right : List Char} (rests : related left right)
    : Agree related (.word word left) (.word word right)
  | stop : Agree related .stop .stop
  | fail {error other : Error} (kinds : error.kind = other.kind) (left right : List Char)
    : Agree related (.fail error left) (.fail other right)

variable {settings : Settings} {left right : List Char} {words : List Word}
  {related : List Char → List Char → Prop}

theorem ScansAgree.append {first second : List Word × Option Error} (h : ScansAgree first second)
    (words : List Word)
    : ScansAgree (words ++ first.1, first.2) (words ++ second.1, second.2) :=
  ⟨congrArg (words ++ ·) h.words, h.kinds⟩

theorem ScansAgree.symm {first second : List Word × Option Error} (h : ScansAgree first second)
    : ScansAgree second first :=
  ⟨h.words.symm, h.kinds.symm⟩

theorem ScansAgree.trans {first second third : List Word × Option Error}
    (h : ScansAgree first second) (h' : ScansAgree second third) : ScansAgree first third :=
  ⟨h.words.trans h'.words, h.kinds.trans h'.kinds⟩

/-- Related texts whose steps agree have scans that agree, by induction on the scan. -/
theorem scansAgree_of_steps
    (steps
      : ∀ left right,
          related left right → (Step.take settings left).Agree related (Step.take settings right))
    (start : related left right)
    : ScansAgree (scanWords settings left) (scanWords settings right) := by
  fun_induction scanWords settings left generalizing right with
  | case1 left stop =>
      have step := steps left right start
      generalize other : Step.take settings right = answer at step
      rw [stop] at step
      cases step
      rw [scanWords_of_stop other]
      exact ⟨rfl, rfl⟩
  | case2 left error rest fails =>
      have step := steps left right start
      generalize other : Step.take settings right = answer at step
      rw [fails] at step
      cases step with
      | fail kinds =>
          rw [scanWords_of_fail other]
          exact ⟨rfl, congrArg some kinds⟩
  | case3 left word rest taken words error more ih =>
      have step := steps left right start
      generalize other : Step.take settings right = answer at step
      rw [taken] at step
      cases step with
      | word _ rests =>
          have agree := (ih rests).append [word]
          rw [more] at agree
          rw [scanWords_of_word other]
          exact agree

/-- Blanks at the start of a text only show in the text that is left over. -/
theorem take_agree_of_trimStart (same : Text.trimStart left = Text.trimStart right)
    : (Step.take settings left).Agree (fun left right => Text.trimStart left = Text.trimStart right)
        (Step.take settings right) := by
  have next : settings.dialect.nextLetter? left = settings.dialect.nextLetter? right := by
    rw [Dialect.nextLetter?, Dialect.nextLetter?, same]
  unfold Step.take
  rw [next, same]
  split
  · have kinds : (Error.leftoverText left).kind = (Error.leftoverText right).kind := rfl
    split
    · exact .stop
    · exact .fail kinds left right
  · split
    · exact .fail rfl _ _
    · split
      · exact .fail rfl _ _
      · exact .word _ rfl

theorem scansAgree_of_trimStart (same : Text.trimStart left = Text.trimStart right)
    : ScansAgree (scanWords settings left) (scanWords settings right) :=
  scansAgree_of_steps (fun _ _ => take_agree_of_trimStart) same

/-- Scans that agree, after words that were read before, read the same as a whole: the words, or an
error of the same kind.
-/
theorem ScansAgree.readWords
    (h : ScansAgree (scanWords settings left)
      (words ++ (scanWords settings right).1, (scanWords settings right).2))
    : (readWords settings left).mapError Error.kind
      = ((readWords settings right).map (words ++ ·)).mapError Error.kind := by
  obtain ⟨same, kinds⟩ := h
  unfold Gcode.readWords
  generalize scanWords settings left = first at same kinds
  generalize scanWords settings right = second at same kinds
  obtain ⟨found, error⟩ := first
  obtain ⟨more, other⟩ := second
  cases error with
  | none =>
      cases other with
      | none => exact congrArg Except.ok same
      | some _ => contradiction
  | some _ =>
      cases other with
      | none => contradiction
      | some _ => exact congrArg Except.error (Option.some.inj kinds)

end Gcode
