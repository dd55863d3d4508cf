import ScopedSql.Decimal.Layout
import ScopedSql.Json.Document

/-!
# Compact text of documents

`Document.compact` writes a document without blanks, members in their order. Strings escape
quotes, backslashes and the characters below the space, and nothing else.
-/

namespace ScopedSql.Json

/-- **Numbers in documents** are written positionally from 0.00001 up to below 10^16, carry a plus
sign before a positive exponent, and take the even one of two equally near decimals. Values that
are no numbers have no text in JSON and become `null`. -/
def numberLayout : Decimal.Layout where
  plainFrom := -5
  plainBelow := 16
  plus := "+"
  tie := .toEven
  nan := "null"
  infinite := "null"

/-- The text of a number. -/
def Number.render : Number → String
  | .whole n => toString n.value
  | .real x => if x.isFinite then numberLayout.render x else "null"

/-- How one character is written inside a JSON string. -/
def escaped (c : Char) : List Char :=
  match c with
  | '\x22' => ['\\', '\x22']
  | '\\' => ['\\', '\\']
  | '\x08' => ['\\', 'b']
  | '\x0c' => ['\\', 'f']
  | '\n' => ['\\', 'n']
  | '\r' => ['\\', 'r']
  | '\t' => ['\\', 't']
  | c =>
      if c.toNat < 0x20 then
        ['\\', 'u', '0', '0', Nat.digitChar (c.toNat / 16), Nat.digitChar (c.toNat % 16)]
      else [c]

/-- A JSON string: the escaped text between double quotes. -/
def renderText (s : String) : String :=
  String.ofList (['\x22'] ++ s.toList.flatMap escaped ++ ['\x22'])

mutual

/-- **The compact text** of a document. -/
def Document.compact : Document → String
  | .null => "null"
  | .bool b => if b then "true" else "false"
  | .number n => n.render
  | .text s => renderText s
  | .array items => "[" ++ compactItems items ++ "]"
  | .object members => "\x7b" ++ compactMembers members ++ "\x7d"
termination_by structural d => d

/-- The items of a list, separated by commas. -/
def compactItems : List Document → String
  | [] => ""
  | [d] => d.compact
  | d :: rest => d.compact ++ "," ++ compactItems rest
termination_by structural ds => ds

/-- The members of an object, separated by commas. -/
def compactMembers : List (String × Document) → String
  | [] => ""
  | [(key, d)] => renderText key ++ ":" ++ d.compact
  | (key, d) :: rest => renderText key ++ ":" ++ d.compact ++ "," ++ compactMembers rest
termination_by structural ms => ms

end

end ScopedSql.Json
