import ScopedSql.Text.Blank

/-!
# Comparison operators and connectors

Built-in operators have spellings that ignore blanks around and between their words and the case of
ASCII letters. Any other text is an operator of its own and is passed on as it stands, without
the blanks at its ends.
-/

namespace ScopedSql

/-- **A comparison operator.** -/
inductive Operator where
  /-- Equality. -/
  | eq
  /-- Inequality. -/
  | notEq
  /-- Greater. -/
  | gt
  /-- Greater or equal. -/
  | ge
  /-- Less. -/
  | lt
  /-- Less or equal. -/
  | le
  /-- Pattern matching. -/
  | like
  /-- Membership in a list. -/
  | isIn
  /-- Absence from a list. -/
  | notIn
  /-- An operator that only the engine knows. -/
  | other (text : String)
  deriving DecidableEq, Repr

namespace Operator

/-- The built-in operator of a spelling in upper case with single spaces. -/
def builtIn? (spelling : String) : Option Operator :=
  match spelling with
  | "=" => some .eq
  | "==" => some .eq
  | "!=" => some .notEq
  | "<>" => some .notEq
  | ">" => some .gt
  | ">=" => some .ge
  | "<" => some .lt
  | "<=" => some .le
  | "LIKE" => some .like
  | "IN" => some .isIn
  | "NOT IN" => some .notIn
  | _ => none

/-- The words of a text joined by single spaces, ASCII letters in upper case. -/
def spelling (raw : String) : String :=
  String.ofList (([' '].intercalate (Text.words raw.toList)).map Char.toUpper)

/-- **Reads an operator.** -/
def parse (raw : String) : Operator :=
  (builtIn? (spelling raw)).getD (.other (String.ofList (Text.trim raw.toList)))

/-- The SQL text of an operator. -/
def sql : Operator → String
  | .eq => "="
  | .notEq => "!="
  | .gt => ">"
  | .ge => ">="
  | .lt => "<"
  | .le => "<="
  | .like => "LIKE"
  | .isIn => "IN"
  | .notIn => "NOT IN"
  | .other text => text

/-- Whether the operator compares with a list; all others compare with a single value. -/
def takesList : Operator → Bool
  | .isIn => true
  | .notIn => true
  | _ => false

end Operator

/-- **What joins the conditions of a group.** -/
inductive Connector where
  /-- All conditions hold. -/
  | and
  /-- Some condition holds. -/
  | or
  deriving DecidableEq, Repr

/-- The SQL text of a connector, which is also the key of its groups in documents. -/
def Connector.sql : Connector → String
  | .and => "AND"
  | .or => "OR"

end ScopedSql
