import Mathlib.Data.String.Basic
import Mathlib.Data.UInt

/-! The order of texts is that of their bytes in UTF-8.
The first byte of a character tells how many there are, and more bytes have a greater first one; the
bytes of characters of equal length are digits in the same base, the highest first.
-/

namespace Gcode.Text

variable {text other : List UInt8}

theorem ofNat_cons_lt {first second : Nat} (small : second < 256) (le : first ≤ second)
    (rest : first = second → text < other)
    : UInt8.ofNat first :: text < UInt8.ofNat second :: other := by
  have byte {n : Nat} (small : n < 256) : (UInt8.ofNat n).toNat = n :=
    UInt8.toNat_ofNat_of_lt' small
  rw [List.cons_lt_cons_iff, UInt8.lt_iff_toNat_lt, byte small, byte (Nat.lt_of_le_of_lt le small)]
  rcases Nat.lt_or_eq_of_le le with less | same
  · exact .inl less
  · exact .inr ⟨congrArg UInt8.ofNat same, rest same⟩

/-- Of two characters the smaller one has the smaller bytes, whatever comes after them. -/
theorem utf8EncodeChar_append_lt {c d : Char} (less : c < d)
    : String.utf8EncodeChar c ++ text < String.utf8EncodeChar d ++ other := by
  have less : c.val.toNat < d.val.toNat := UInt32.lt_iff_toNat_lt.1 less
  have small : d.val.toNat < 0x110000 := by
    have valid := d.valid
    simp only [UInt32.isValidChar, Nat.isValidChar] at valid
    omega
  fun_cases String.utf8EncodeChar c <;> fun_cases String.utf8EncodeChar d
  -- The smaller character does not have more bytes.
  all_goals try omega
  all_goals
    simp only [List.cons_append, List.nil_append]
    repeat
      refine ofNat_cons_lt (by omega) (by omega) fun same => ?_
      try omega

theorem flatMap_utf8EncodeChar_lt {text other : List Char} (less : text < other)
    : text.flatMap String.utf8EncodeChar < other.flatMap String.utf8EncodeChar := by
  induction text generalizing other with
  | nil =>
      cases other with
      | nil => exact absurd less (List.not_lt_nil [])
      | cons d other =>
          obtain ⟨byte, bytes, encoded⟩ :=
            List.exists_cons_of_ne_nil (String.utf8EncodeChar_ne_nil (c := d))
          rw [List.flatMap_cons, encoded]
          exact List.nil_lt_cons _ _
  | cons c text ih =>
      cases other with
      | nil => exact absurd less (List.not_lt_nil _)
      | cons d other =>
          rw [List.flatMap_cons, List.flatMap_cons]
          rcases List.cons_lt_cons_iff.1 less with first | ⟨rfl, rest⟩
          · exact utf8EncodeChar_append_lt first
          · exact List.append_left_lt (ih rest)

/-- The bytes of a text in UTF-8. -/
def bytes (text : String) : List UInt8 :=
  text.toUTF8.data.toList

theorem bytes_eq_flatMap (text : String)
    : bytes text = text.toList.flatMap String.utf8EncodeChar := by
  rw [bytes, String.toUTF8_eq_toByteArray, ← text.ofList_toList, String.toByteArray_ofList,
    List.utf8Encode, List.data_toByteArray, String.toList_ofList]

theorem lt_iff_bytes_lt {text other : String} : text < other ↔ bytes text < bytes other := by
  rw [bytes_eq_flatMap, bytes_eq_flatMap, String.lt_iff_toList_lt]
  refine ⟨flatMap_utf8EncodeChar_lt, fun less => ?_⟩
  rcases lt_trichotomy text.toList other.toList with before | same | after
  · exact before
  · rw [same] at less
    exact absurd less (List.lt_irrefl _)
  · exact absurd less (List.lt_asymm (flatMap_utf8EncodeChar_lt after))

theorem le_iff_bytes_le {text other : String} : text ≤ other ↔ bytes text ≤ bytes other := by
  rw [← not_lt, ← List.not_lt, lt_iff_bytes_lt]

end Gcode.Text
