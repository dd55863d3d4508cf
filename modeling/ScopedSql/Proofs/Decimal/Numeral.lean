import ScopedSql.Proofs.Json.Numbers
import ScopedSql.Proofs.Sql.Lexing
import ScopedSql.Value.Basic

/-!
# Numbers are written as numerals

`IsNumeral` is the form of numeric literals. Whole numbers are written so, and so are doubles in any
format (`Decimal.Layout.isNumeral_render`), whichever digits are chosen for them, as long as they are
finite. A numeral is read as one token (`Sql.plain_of_isNumeral`).
-/

namespace ScopedSql

variable {s : List Char} {text : String}

/-! ### The form of numerals -/

/-- Digits, of which there is at least one. -/
structure IsDigits (s : List Char) : Prop where
  /-- There is one. -/
  nonempty : s ≠ []
  /-- They are digits. -/
  digits : ∀ c ∈ s, c.isDigit

/-- A fraction: a point and digits, or nothing. -/
inductive IsFraction : List Char → Prop
  /-- No fraction. -/
  | none : IsFraction []
  /-- A point and digits. -/
  | some {digits : List Char} (h : IsDigits digits) : IsFraction ('.' :: digits)

/-- An exponent: its mark and digits, perhaps with a sign, or nothing. -/
inductive IsExponent : List Char → Prop
  /-- No exponent. -/
  | none : IsExponent []
  /-- A mark, a sign and digits. -/
  | some {mark : Char} {sign digits : List Char} (hmark : mark = 'e' ∨ mark = 'E')
      (hsign : sign = [] ∨ sign = ['-'] ∨ sign = ['+']) (h : IsDigits digits) :
      IsExponent (mark :: (sign ++ digits))

/-- A numeral without a sign. -/
inductive IsUnsigned : List Char → Prop
  /-- Digits, then a fraction and an exponent, if any. -/
  | mk {whole fraction exponent : List Char} (hwhole : IsDigits whole) (hfraction : IsFraction fraction)
      (hexponent : IsExponent exponent) : IsUnsigned (whole ++ (fraction ++ exponent))

/-- **A numeral**, with a minus before it or none. -/
def IsNumeral (text : String) : Prop :=
  IsUnsigned text.toList ∨ ∃ s, IsUnsigned s ∧ text.toList = '-' :: s

/-- Digits are a numeral. -/
theorem IsDigits.isUnsigned (h : IsDigits s) : IsUnsigned s := by
  simpa using IsUnsigned.mk h .none .none

/-- Digits behind digits are digits. -/
theorem IsDigits.append {t : List Char} (hs : ∀ c ∈ s, c.isDigit) (ht : IsDigits t) :
    IsDigits (s ++ t) :=
  ⟨fun h => ht.nonempty (List.append_eq_nil_iff.mp h).2, List.forall_mem_append.mpr ⟨hs, ht.digits⟩⟩

/-- A zero is digits. -/
theorem isDigits_zero : IsDigits ['0'] := ⟨List.cons_ne_nil _ _, List.forall_mem_singleton.mpr rfl⟩

/-- The decimal digits of a number are digits. -/
theorem isDigits_toDigits (n : Nat) : IsDigits (Nat.toDigits 10 n) :=
  ⟨Nat.toDigits_ne_nil, Json.isDigit_toDigits n⟩

/-! ### Numerals as tokens -/

/-- The lexer reads on over digits. -/
theorem IsDigits.isNumberRest (h : IsDigits s) : ∀ c ∈ s, Sql.isNumberRest c := fun c hc => by
  simp [Sql.isNumberRest, h.digits c hc]

/-- The lexer reads on over a fraction. -/
theorem IsFraction.isNumberRest (h : IsFraction s) : ∀ c ∈ s, Sql.isNumberRest c := by
  cases h with
  | none => nofun
  | some h => exact List.forall_mem_cons.mpr ⟨by decide, h.isNumberRest⟩

/-- The lexer reads on over an exponent. -/
theorem IsExponent.isNumberRest (h : IsExponent s) : ∀ c ∈ s, Sql.isNumberRest c := by
  cases h with
  | none => nofun
  | some hmark hsign h =>
      refine List.forall_mem_cons.mpr ⟨?_, List.forall_mem_append.mpr ⟨?_, h.isNumberRest⟩⟩
      · rcases hmark with rfl | rfl <;> decide
      · rcases hsign with rfl | rfl | rfl
        · nofun
        · exact List.forall_mem_singleton.mpr rfl
        · exact List.forall_mem_singleton.mpr rfl

/-- A numeral without a sign begins with a digit, and its characters are those of numbers. -/
theorem IsUnsigned.exists_digit (h : IsUnsigned s) :
    ∃ c rest, s = c :: rest ∧ c.isDigit ∧ ∀ d ∈ rest, Sql.isNumberRest d := by
  obtain ⟨hwhole, hfraction, hexponent⟩ := h
  obtain ⟨c, more, rfl⟩ := List.exists_cons_of_ne_nil hwhole.nonempty
  refine ⟨c, _, List.cons_append, hwhole.digits c List.mem_cons_self, ?_⟩
  have hmore := (List.forall_mem_cons.mp hwhole.isNumberRest).2
  exact List.forall_mem_append.mpr
    ⟨hmore, List.forall_mem_append.mpr ⟨hfraction.isNumberRest, hexponent.isNumberRest⟩⟩

/-- **A numeral is read as one token.** -/
theorem Sql.plain_of_isNumeral (h : IsNumeral text) : (Token.number text).plain := by
  rw [Token.plain]
  rcases h with h | ⟨s, h, heq⟩
  · obtain ⟨c, rest, heq, hc, hrest⟩ := h.exists_digit
    simpa [heq, hc] using hrest
  · obtain ⟨c, rest, rfl, hc, hrest⟩ := h.exists_digit
    have hfirst : isNumberRest c := by simp [isNumberRest, hc]
    simpa [heq, hfirst] using hrest

/-- A minus alone is no numeral. -/
theorem not_isNumeral_minus : ¬ IsNumeral "-" := by
  rintro (h | ⟨s, h, heq⟩)
  · obtain ⟨c, rest, heq, hc, -⟩ := h.exists_digit
    obtain ⟨rfl, -⟩ := List.cons.inj heq
    cases hc
  · obtain ⟨c, rest, rfl, -⟩ := h.exists_digit
    cases heq

/-! ### What is written as a numeral -/

/-- **A whole number is written as a numeral.** -/
theorem isNumeral_toString (z : Int) : IsNumeral (toString z) := by
  cases z with
  | ofNat n =>
      refine .inl ?_
      rw [show (toString (Int.ofNat n)).toList = Nat.toDigits 10 n from Nat.toList_repr]
      exact (isDigits_toDigits n).isUnsigned
  | negSucc n => exact .inr ⟨_, (isDigits_toDigits _).isUnsigned, Json.toList_toString_negSucc n⟩

namespace Decimal

variable {digits : List Char}

/-- Digits with their point are a numeral, wherever the point stands. -/
theorem isUnsigned_positional (h : IsDigits digits) (e : Int) : IsUnsigned (positional digits e) := by
  have hzeros : ∀ n, ∀ c ∈ List.replicate n '0', c.isDigit := by
    intro n c hc
    rw [List.eq_of_mem_replicate hc]
    rfl
  unfold positional
  split
  case isTrue =>
    have hfraction := IsDigits.append (hzeros (-e - 1).toNat) h
    simpa using IsUnsigned.mk isDigits_zero (.some hfraction) .none
  case isFalse =>
    simp only
    split
    case isTrue hlt =>
      have hwhole : IsDigits (digits.take (e.toNat + 1)) :=
        ⟨by simp [h.nonempty], fun c hc => h.digits c (List.mem_of_mem_take hc)⟩
      have hfraction : IsDigits (digits.drop (e.toNat + 1)) :=
        ⟨by simpa [List.drop_eq_nil_iff] using hlt, fun c hc => h.digits c (List.mem_of_mem_drop hc)⟩
      simpa using IsUnsigned.mk hwhole (.some hfraction) .none
    case isFalse hle =>
      have hwhole : IsDigits (digits ++ List.replicate (e.toNat + 1 - digits.length) '0') :=
        ⟨by simp [h.nonempty], List.forall_mem_append.mpr ⟨h.digits, hzeros _⟩⟩
      simpa using IsUnsigned.mk hwhole (.some isDigits_zero) .none

/-- Digits with an exponent are a numeral. -/
theorem isUnsigned_scientific {plus : String} (hplus : plus = "" ∨ plus = "+") (h : IsDigits digits)
    (e : Int) : IsUnsigned (scientific plus digits e) := by
  have hmark : (if e < 0 then ['-'] else plus.toList) = [] ∨
      (if e < 0 then ['-'] else plus.toList) = ['-'] ∨
        (if e < 0 then ['-'] else plus.toList) = ['+'] := by
    split
    · exact .inr (.inl rfl)
    · rcases hplus with rfl | rfl
      · exact .inl rfl
      · exact .inr (.inr rfl)
  have hexponent := IsExponent.some (.inl rfl) hmark (isDigits_toDigits e.natAbs)
  obtain ⟨d, more, rfl⟩ := List.exists_cons_of_ne_nil h.nonempty
  obtain ⟨hd, hmore⟩ := List.forall_mem_cons.mp h.digits
  have hwhole : IsDigits [d] := ⟨List.cons_ne_nil _ _, List.forall_mem_singleton.mpr hd⟩
  cases more with
  | nil => simpa [scientific, digitsOf] using IsUnsigned.mk hwhole .none hexponent
  | cons d' more =>
      have hfraction : IsFraction ('.' :: d' :: more) := .some ⟨List.cons_ne_nil _ _, hmore⟩
      simpa [scientific, digitsOf] using IsUnsigned.mk hwhole hfraction hexponent

namespace Layout

variable {l : Layout} {x : Binary64}

/-- A positive double is written as a numeral: it does not matter which digits stand for it. -/
theorem isUnsigned_renderPositive (hplus : l.plus = "" ∨ l.plus = "+") :
    IsUnsigned (l.renderPositive x) := by
  have hdigits := isDigits_toDigits (Decimal.ofBinary64 l.tie x).digits
  unfold renderPositive
  simp only
  split
  · exact isUnsigned_positional hdigits _
  · exact isUnsigned_scientific hplus hdigits _

/-- **A finite double is written as a numeral.** -/
theorem isNumeral_render (hplus : l.plus = "" ∨ l.plus = "+") (hx : x.isFinite) :
    IsNumeral (l.render x) := by
  have hsigned : ∀ text : String, IsUnsigned text.toList →
      IsNumeral ((if x.isNegative then "-" else "") ++ text) := by
    intro text h
    split
    · exact .inr ⟨_, h, String.toList_append⟩
    · exact .inl (by rwa [String.empty_append])
  have hnumber : x.isNaN = false := by
    rw [Binary64.isFinite, decide_eq_true_eq] at hx
    simp [Binary64.isNaN, hx]
  rw [render, hnumber, hx]
  simp only [Bool.false_eq_true, if_false, Bool.not_true]
  split
  · exact hsigned "0.0" (.mk isDigits_zero (.some isDigits_zero) .none)
  · refine hsigned _ ?_
    rw [String.toList_ofList]
    exact isUnsigned_renderPositive hplus

/-- **What is no number is written as a word**, with a minus before it if it is negative. -/
theorem render_of_not_isFinite (l : Layout) (hx : x.isFinite = false) :
    l.render x = l.nan ∨ l.render x = l.infinite ∨ l.render x = "-" ++ l.infinite := by
  unfold render
  split
  · exact .inl rfl
  · simp only [hx, Bool.not_false, if_true]
    split
    · exact .inr (.inr rfl)
    · exact .inr (.inl (String.empty_append))

end Layout

end Decimal

end ScopedSql
