import ScopedSql.Sql.Lexer
import ScopedSql.Text.Utf8

/-!
# Where tokens stand

A refusal may say where in a statement its cause stands. An offset counts the bytes of the UTF-8
form of the text before a token.
-/

namespace ScopedSql.Sql

/-- Each token of a text with the part of the text that begins with it, with fuel for each token
and gap. What is no token ends the list. -/
def suffixesWithin : Nat → List Char → List (Token × List Char)
  | _, [] => []
  | 0, _ :: _ => []
  | fuel + 1, c :: rest =>
      if isGap c then suffixesWithin fuel rest
      else
        match readToken? c rest with
        | none => []
        | some (t, after) => (t, c :: rest) :: suffixesWithin fuel after

/-- **The tokens of a text with their offsets.** -/
def placed (sql : String) : List (Token × Nat) :=
  let s := sql.toList
  let size := (Text.Utf8.encode s).length
  (suffixesWithin s.length s).map fun (t, suffix) => (t, size - (Text.Utf8.encode suffix).length)

/-- What comes after the first place where some leading tokens stand. -/
def placedAfter (lead : List Token) : List (Token × Nat) → List (Token × Nat)
  | [] => []
  | p :: rest =>
      if lead.isPrefixOf ((p :: rest).map Prod.fst) then (p :: rest).drop lead.length
      else placedAfter lead rest

/-- **Where a token stands** for the first time after some leading tokens. -/
def offsetAfter (lead : List Token) (t : Token) (sql : String) : Nat :=
  ((placedAfter lead (placed sql)).lookup t).getD 0

/-- **The token at which a definition breaks off**, with its offset: a name after a sign that needs a
number, or the end of an index without columns. -/
def unexpected? : List (Token × Nat) → Option (Token × Nat)
  | [] => none
  | (.number "-", _) :: p :: _ => some p
  | (.word "ON", _) :: (.word _, _) :: (.opening, _) :: (.closing, n) :: _ => some (.closing, n)
  | _ :: rest => unexpected? rest

end ScopedSql.Sql
