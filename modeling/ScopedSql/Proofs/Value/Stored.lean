import Mathlib.Logic.Function.Iterate
import ScopedSql.Proofs.Text.Utf8
import ScopedSql.Value.Storage

/-!
# What is bound is read back

A value that is bound and read again is the value that it was (`Value.reread_eq`), but for truth values,
which the engine keeps as integers. A text that the engine holds need not be UTF-8. What is read of it is
a value that binding and reading no longer change, and it is the text of these bytes exactly if they are
well formed (`Value.text_reread_iff`).
-/

namespace ScopedSql

/-- The bytes of a string are those in which its characters are written. -/
theorem Text.Utf8.encode_toList (s : String) : encode s.toList = s.toByteArray.data.toList := by
  rw [← s.utf8Encode_toList, List.utf8Encode, List.data_toByteArray]
  rfl

namespace Value

open Text.Utf8 (WellFormed encode decode)

variable {bytes : List UInt8}

/-- **A value as the engine keeps it**: an integer stands for a truth value. -/
def kept : Value → Value
  | .boolean b => .integer (if b then 1 else 0)
  | v => v

/-- A value that was bound and then read. -/
def reread (v : Value) : Value := ofStored v.toStored

/-- **A value that is bound and read is what the engine keeps of it.** -/
theorem reread_eq (v : Value) : v.reread = v.kept := by
  cases v with
  | text s =>
      rw [reread, toStored, ofStored, Text.Utf8.decode_encode, String.ofList_toList]
      rfl
  | _ => rfl

/-- **Bytes that are read as a text are its bytes exactly if they are well formed.** -/
theorem text_reread_iff :
    (∃ s : String, s.toByteArray.data.toList = bytes ∧ ofStored (.text bytes) = .text s) ↔
      WellFormed bytes := by
  rw [← Text.Utf8.encode_decode_eq_iff]
  constructor
  · rintro ⟨s, hbytes, hread⟩
    obtain rfl : String.ofList (decode bytes) = s := by injection hread
    rwa [← Text.Utf8.encode_toList, String.toList_ofList] at hbytes
  · intro h
    refine ⟨String.ofList (decode bytes), ?_, rfl⟩
    rw [← Text.Utf8.encode_toList, String.toList_ofList, h]

/-- **What is bound is read back.** Every value comes back as it was, and a truth value as the integer
that is kept for it. What is read of a text, whatever its bytes are, comes back as it was however often it
is bound and read, and it is the text of these bytes exactly if they are well formed. -/
theorem bound_is_read_back :
    (∀ v : Value, ofStored v.toStored = v.kept) ∧
      ∀ bytes : List UInt8,
        (∀ n, reread^[n] (ofStored (.text bytes)) = ofStored (.text bytes)) ∧
          ((∃ s : String, s.toByteArray.data.toList = bytes ∧ ofStored (.text bytes) = .text s) ↔
            WellFormed bytes) := by
  refine ⟨reread_eq, fun bytes => ⟨fun n => ?_, text_reread_iff⟩⟩
  exact Function.iterate_fixed (reread_eq (ofStored (.text bytes))) n

/-- A character of four bytes that breaks off after two is replaced once. -/
example : ofStored (.text [0x61, 0xF0, 0x90, 0x62, 0xC3, 0xA9]) = .text "a\uFFFDbé" := by
  decide +kernel

end Value

end ScopedSql
