import Gcode.Word.Order

/-! Reading the words of a line from left to right.
Each step takes one word from the rest of the text. The scan ends at blanks or with one error,
and says nothing after that.
-/

namespace Gcode

structure Scan where
  settings : Settings
  rest : List Char
  finished : Bool := false

/-- One step at the start of a text: a word and the text after it, or how the scan ends and the
text it ends at.
-/
inductive Step where
  | word (word : Word) (rest : List Char)
  | stop
  | fail (error : Error) (rest : List Char)

/-- Takes the next word of a text. A letter whose value is not understood is used up; text that
does not start with a letter is not.
-/
def Step.take (settings : Settings) (text : List Char) : Step :=
  match settings.dialect.nextLetter? text with
  | none => if (Text.trimStart text).isEmpty then .stop else .fail (.leftoverText text) text
  | some (letter, rule, rest) =>
      match rule.match? rest with
      | none => .fail (.wordValueInvalid letter.char rest) rest
      | some (source, after) =>
          match Word.ofMatch settings letter rule source with
          | .error e => .fail e rest
          | .ok w => .word w after

/-- A word leaves less text than there was: its letter is gone. -/
theorem Step.take_length {settings : Settings} {text rest : List Char} {w : Word}
    (h : Step.take settings text = .word w rest) : rest.length < text.length := by
  unfold take at h
  split at h
  · split at h <;> contradiction
  · rename_i letter rule tail hl
    split at h
    · contradiction
    · rename_i source after hm
      have hs := congrArg List.length (Rule.match?_append hm)
      have ht := Dialect.nextLetter?_length hl
      split at h
      · contradiction
      · cases h
        simp only [List.length_append] at hs
        omega

namespace Scan

/-- The next word or the one error, and the scan after it. -/
def next (scan : Scan) : Option (Except Error Word) × Scan :=
  if scan.finished then (none, scan)
  else
    match Step.take scan.settings scan.rest with
    | .word w rest => (some (.ok w), { scan with rest })
    | .stop => (none, { scan with finished := true })
    | .fail error rest => (some (.error error), { scan with rest, finished := true })

end Scan

/-- The words of a text up to its end or to its first error. -/
def scanWords (settings : Settings) (text : List Char) : List Word × Option Error :=
  match _h : Step.take settings text with
  | .stop => ([], none)
  | .fail error _ => ([], some error)
  | .word w rest =>
      let (words, error) := scanWords settings rest
      (w :: words, error)
termination_by text.length
decreasing_by exact Step.take_length _h

/-- All words of a text. -/
def readWords (settings : Settings) (text : List Char) : Except Error (List Word) :=
  match scanWords settings text with
  | (words, none) => .ok words
  | (_, some error) => .error error

/-- The word of a text that holds exactly one. -/
def readWord (settings : Settings) (text : List Char) : Except Error Word := do
  match ← readWords settings text with
  | [word] => return word
  | words => .error (.singleWordArity words.length)

/-- Whether a text, read under the settings of a word, is that word. -/
def Word.isWrittenAs (word : Word) (text : List Char) : Bool :=
  match readWord word.settings text with
  | .ok other => word.eq other
  | .error _ => false

end Gcode
