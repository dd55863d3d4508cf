import ScopedSql.Proofs.Decimal.Rounding
import ScopedSql.Value.Scalar

/-!
# Values and documents

A document is finite if all its doubles are. A scalar of a finite document is an expressible value
(`Value.expressible_of_ofDocument`), also where a whole number is too great for a signed word and is
rounded, and every expressible value has a finite document from which it is read back
(`Value.ofDocument_document`). So these are the values that documents can give.
-/

namespace ScopedSql

open Json (Document Number Whole)

/-! ### Finite documents -/

namespace Json.Document

mutual

/-- **Whether all doubles of a document are finite.** -/
def isFinite : Document → Bool
  | .number (.real x) => x.isFinite
  | .array items => allFinite items
  | .object members => membersFinite members
  | _ => true
termination_by structural d => d

/-- Whether all doubles of some documents are finite. -/
def allFinite : List Document → Bool
  | [] => true
  | d :: rest => d.isFinite && allFinite rest
termination_by structural ds => ds

/-- Whether all doubles of the values of some members are finite. -/
def membersFinite : List (String × Document) → Bool
  | [] => true
  | (_, d) :: rest => d.isFinite && membersFinite rest
termination_by structural ms => ms

end

/-- A list has no double that is no number exactly if none of its documents has. -/
theorem allFinite_iff (items : List Document) : allFinite items ↔ ∀ d ∈ items, d.isFinite := by
  induction items with
  | nil => simp [allFinite]
  | cons d rest ih => rw [allFinite, Bool.and_eq_true, ih, List.forall_mem_cons]

/-- Members have no double that is no number exactly if none of their values has. -/
theorem membersFinite_iff (members : List (String × Document)) :
    membersFinite members ↔ ∀ m ∈ members, m.2.isFinite := by
  induction members with
  | nil => simp [membersFinite]
  | cons m rest ih => rw [membersFinite, Bool.and_eq_true, ih, List.forall_mem_cons]

/-- An array has no double that is no number exactly if none of its documents has. -/
theorem isFinite_array {items : List Document} :
    (array items).isFinite ↔ ∀ d ∈ items, d.isFinite := by
  rw [isFinite, allFinite_iff]

/-- An object has no double that is no number exactly if none of its values has. -/
theorem isFinite_object {members : List (String × Document)} :
    (object members).isFinite ↔ ∀ m ∈ members, m.2.isFinite := by
  rw [isFinite, membersFinite_iff]

/-- A member that is found stands among the members. -/
theorem isFinite_of_member? {members : List (String × Document)} {key : String} {d : Document}
    (h : (object members).isFinite) (hd : member? key members = some d) : d.isFinite := by
  obtain ⟨before, after, rfl, -⟩ := List.lookup_eq_some_iff.mp hd
  exact isFinite_object.mp h (key, d) (by simp)

end Json.Document

/-! ### Expressible values -/

namespace Value

/-- **A value that a document can give**: no bytes, and no infinity or NaN. -/
def Expressible : Value → Prop
  | .blob _ => False
  | .real x => x.isFinite
  | _ => True

/-- **The document of a value**; bytes have none. -/
def document : Value → Document
  | .integer n => .number (.ofInt n.toInt)
  | .real x => .number (.real x)
  | .text s => .text s
  | .boolean b => .bool b
  | _ => .null

/-- A signed word is a whole number of a document. -/
theorem ofInt_toInt (n : Int64) : ∃ w : Whole, w.value = n.toInt ∧ Number.ofInt n.toInt = .whole w := by
  have hlow : Int64.minValue.toInt ≤ n.toInt := Int64.minValue_le_toInt n
  have hhigh : n.toInt < UInt64.size := by
    have hlt := Int64.toInt_lt n
    have hsize : (UInt64.size : Int) = 2 ^ 64 := rfl
    omega
  exact ⟨⟨n.toInt, hlow, hhigh⟩, rfl, dif_pos ⟨hlow, hhigh⟩⟩

/-- A signed word fits a signed word. -/
theorem signedWord?_toInt (n : Int64) : signedWord? n.toInt = some n := by
  have hfits : Int64.minValue.toInt ≤ n.toInt ∧ n.toInt ≤ Int64.maxValue.toInt :=
    ⟨Int64.minValue_le_toInt n, Int64.toInt_le n⟩
  rw [signedWord?, if_pos hfits, Int64.ofInt_toInt]

/-- **An expressible value is read from its document.** -/
theorem ofDocument_document {v : Value} (h : v.Expressible) : ofDocument v.document = .ok v := by
  cases v with
  | integer n =>
      obtain ⟨w, hvalue, hw⟩ := ofInt_toInt n
      rw [document, ofDocument, hw, ofNumber, hvalue, signedWord?_toInt]
  | blob => exact h.elim
  | _ => rfl

/-- The document of an expressible value is finite. -/
theorem isFinite_document {v : Value} (h : v.Expressible) : v.document.isFinite := by
  cases v with
  | integer n =>
      obtain ⟨w, -, hw⟩ := ofInt_toInt n
      simp [document, hw, Document.isFinite]
  | real x => exact h
  | _ => simp [document, Document.isFinite]

/-- A whole number of a document has at most 64 bits. -/
theorem log2_natAbs_lt (w : Whole) : w.value.natAbs.log2 < 1023 := by
  have hlow := w.lower
  have hhigh := w.upper
  have hmin : Int64.minValue.toInt = -2 ^ 63 := rfl
  have hsize : (UInt64.size : Int) = 2 ^ 64 := rfl
  have hbits : w.value.natAbs < 2 ^ 64 := by omega
  rcases Nat.eq_zero_or_pos w.value.natAbs with h | h
  · rw [h]
    decide
  · exact Nat.lt_trans ((Nat.log2_lt (Nat.pos_iff_ne_zero.mp h)).mpr hbits) (by decide)

/-- **What is read from a finite document is expressible.** -/
theorem expressible_of_ofDocument {d : Document} {v : Value} (hd : d.isFinite)
    (h : ofDocument d = .ok v) : v.Expressible := by
  cases d with
  | null => cases h; trivial
  | bool => cases h; trivial
  | text => cases h; trivial
  | number n =>
      cases h
      cases n with
      | whole w =>
          rw [ofNumber]
          split
          · trivial
          · exact Binary64.isFinite_ofInt (log2_natAbs_lt w)
      | real x => exact hd
  | array => nomatch h
  | object => nomatch h

end Value

end ScopedSql
