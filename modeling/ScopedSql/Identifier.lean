import ScopedSql.Fault

/-!
# Plain identifiers

Names of tables and columns are written into SQL text as they are, so only plain identifiers are
let through: an ASCII letter or an underscore, then ASCII letters, digits and underscores.
-/

namespace ScopedSql

/-- Whether a character may start an identifier. -/
def isIdentifierStart (c : Char) : Bool :=
  c.isAlpha || c == '_'

/-- Whether a character may follow in an identifier. -/
def isIdentifierRest (c : Char) : Bool :=
  c.isAlphanum || c == '_'

/-- **Plain identifiers.** -/
def isIdentifier (name : String) : Bool :=
  match name.toList with
  | [] => false
  | c :: rest => isIdentifierStart c && rest.all isIdentifierRest

/-- **Whether two names are the same** to an engine, which takes letters of either case for one. -/
def sameName (a b : String) : Bool :=
  a.toList.map Char.toLower == b.toList.map Char.toLower

/-- Refuses a name that is no plain identifier. -/
def checkIdentifier (name : String) : Except Fault Unit :=
  if isIdentifier name then .ok () else .error (.invalidIdentifier name)

/-- Refuses the first name of a list that is no plain identifier. -/
def checkIdentifiers : List String → Except Fault Unit
  | [] => .ok ()
  | name :: rest => do
      checkIdentifier name
      checkIdentifiers rest

/-- A name passes exactly when it is an identifier. -/
theorem checkIdentifier_eq_ok_iff {name : String} :
    checkIdentifier name = .ok () ↔ isIdentifier name = true := by
  unfold checkIdentifier
  split <;> simp_all

/-- **The first bad name is named**: names pass exactly when all are identifiers. -/
theorem checkIdentifiers_eq_ok_iff {names : List String} :
    checkIdentifiers names = .ok () ↔ ∀ name ∈ names, isIdentifier name = true := by
  induction names with
  | nil => simp [checkIdentifiers]
  | cons name rest ih =>
      unfold checkIdentifiers checkIdentifier
      by_cases h : isIdentifier name = true
      · simp only [h, if_true, bind, Except.bind]
        simp [ih, h]
      · simp [h, bind, Except.bind]

/-- Names are checked from left to right. -/
theorem checkIdentifiers_append (first second : List String) :
    checkIdentifiers (first ++ second) =
      checkIdentifiers first >>= fun _ => checkIdentifiers second := by
  induction first with
  | nil => rfl
  | cons name rest ih =>
      rw [List.cons_append, checkIdentifiers, checkIdentifiers, ih]
      cases checkIdentifier name <;> rfl

/-! ### Which names are refused -/

/-- **The pattern of identifiers**, `[A-Za-z_][A-Za-z0-9_]*`. -/
def IsPlainName (name : String) : Prop :=
  ∃ first rest, name.toList = first :: rest ∧
    (('A' ≤ first ∧ first ≤ 'Z') ∨ ('a' ≤ first ∧ first ≤ 'z') ∨ first = '_') ∧
    ∀ c ∈ rest, ('A' ≤ c ∧ c ≤ 'Z') ∨ ('a' ≤ c ∧ c ≤ 'z') ∨ ('0' ≤ c ∧ c ≤ '9') ∨ c = '_'

/-- A name starts with a letter or an underscore. -/
theorem isIdentifierStart_iff {c : Char} :
    isIdentifierStart c ↔ ('A' ≤ c ∧ c ≤ 'Z') ∨ ('a' ≤ c ∧ c ≤ 'z') ∨ c = '_' := by
  delta isIdentifierStart Char.isAlpha Char.isUpper Char.isLower
  simp only [Bool.or_eq_true, Bool.and_eq_true, decide_eq_true_eq, beq_iff_eq, or_assoc, ge_iff_le,
    Char.le_def]

/-- After its start a name goes on with letters, digits and underscores. -/
theorem isIdentifierRest_iff {c : Char} : isIdentifierRest c ↔
    ('A' ≤ c ∧ c ≤ 'Z') ∨ ('a' ≤ c ∧ c ≤ 'z') ∨ ('0' ≤ c ∧ c ≤ '9') ∨ c = '_' := by
  delta isIdentifierRest Char.isAlphanum Char.isAlpha Char.isUpper Char.isLower Char.isDigit
  simp only [Bool.or_eq_true, Bool.and_eq_true, decide_eq_true_eq, beq_iff_eq, or_assoc, ge_iff_le,
    Char.le_def]

/-- **The names that pass are those of the pattern.** -/
theorem isIdentifier_iff {name : String} : isIdentifier name ↔ IsPlainName name := by
  unfold isIdentifier IsPlainName
  cases name.toList with
  | nil => simp
  | cons c rest =>
      rw [Bool.and_eq_true, List.all_eq_true, isIdentifierStart_iff]
      simp only [isIdentifierRest_iff]
      constructor
      · rintro ⟨hc, hrest⟩
        exact ⟨c, rest, rfl, hc, hrest⟩
      · rintro ⟨c', rest', heq, hc, hrest⟩
        obtain ⟨rfl, rfl⟩ := List.cons.inj heq
        exact ⟨hc, hrest⟩

/-- A name that does not pass is named. -/
theorem checkIdentifier_eq_error_iff {name : String} {e : Fault} :
    checkIdentifier name = .error e ↔ ¬ isIdentifier name ∧ e = .invalidIdentifier name := by
  unfold checkIdentifier
  split
  case isTrue h => simp [h]
  case isFalse h => simp [h, eq_comm]

/-- **Names are refused for the first one that does not pass**, whatever follows it. -/
theorem checkIdentifiers_eq_error_iff {names : List String} {e : Fault} :
    checkIdentifiers names = .error e ↔ ∃ before name after, names = before ++ name :: after ∧
      (∀ n ∈ before, isIdentifier n) ∧ ¬ isIdentifier name ∧ e = .invalidIdentifier name := by
  induction names with
  | nil => simp [checkIdentifiers]
  | cons name rest ih =>
      by_cases h : isIdentifier name
      · have hstep : checkIdentifiers (name :: rest) = checkIdentifiers rest := by
          rw [checkIdentifiers, checkIdentifier_eq_ok_iff.mpr h]
          rfl
        rw [hstep, ih]
        constructor
        · rintro ⟨before, n, after, rfl, hbefore, hn⟩
          exact ⟨name :: before, n, after, rfl, List.forall_mem_cons.mpr ⟨h, hbefore⟩, hn⟩
        · rintro ⟨before, n, after, heq, hbefore, hn⟩
          cases before with
          | nil => exact absurd ((List.cons.inj heq).1 ▸ h) hn.1
          | cons m before =>
              obtain ⟨rfl, rfl⟩ := List.cons.inj heq
              exact ⟨before, n, after, rfl, (List.forall_mem_cons.mp hbefore).2, hn⟩
      · have hstep : checkIdentifiers (name :: rest) = .error (.invalidIdentifier name) := by
          rw [checkIdentifiers, checkIdentifier_eq_error_iff.mpr ⟨h, rfl⟩]
          rfl
        rw [hstep, Except.error.injEq, eq_comm]
        constructor
        · rintro rfl
          exact ⟨[], name, rest, rfl, by simp, h, rfl⟩
        · rintro ⟨before, n, after, heq, hbefore, -, rfl⟩
          cases before with
          | nil => rw [(List.cons.inj heq).1]
          | cons m before =>
              obtain ⟨rfl, -⟩ := List.cons.inj heq
              exact absurd (hbefore name List.mem_cons_self) h

end ScopedSql
