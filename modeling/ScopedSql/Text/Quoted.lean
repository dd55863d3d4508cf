import ScopedSql.Text.Unprintable

/-!
# Quoted text

The display form of a text: double quotes around it, a backslash before quotes and backslashes,
short escapes for line feed, carriage return, tab and the zero character, and `\u` with the code
point in braces for every other character that is not shown as itself.
-/

namespace ScopedSql.Text

/-- The lower-case hexadecimal digits of a number, without leading zeros. -/
def hexDigits (n : Nat) : List Char :=
  Nat.toDigits 16 n

/-- How one character is written inside quotes. -/
def escaped (c : Char) : List Char :=
  match c with
  | '\x00' => ['\\', '0']
  | '\t' => ['\\', 't']
  | '\r' => ['\\', 'r']
  | '\n' => ['\\', 'n']
  | '\\' => ['\\', '\\']
  | '\x22' => ['\\', '\x22']
  | c => if isShown c then [c] else ['\\', 'u', '\x7b'] ++ hexDigits c.toNat ++ ['\x7d']

/-- **Quoted text**: the display form between double quotes. -/
def quoted (s : String) : String :=
  String.ofList (['\x22'] ++ s.toList.flatMap escaped ++ ['\x22'])

/-- The display form of a list of texts: quoted entries in square brackets. -/
def quotedList (xs : List String) : String :=
  "[" ++ String.intercalate ", " (xs.map quoted) ++ "]"

end ScopedSql.Text
