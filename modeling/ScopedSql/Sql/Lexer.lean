import ScopedSql.Identifier
import ScopedSql.Sql.Token

/-!
# Reading SQL text as tokens

`lex` takes SQL text apart into the tokens that `render` writes. A word is a maximal run of the
characters of identifiers, a sign a maximal run of the characters of comparison signs, a text
literal ends at the first quote that is not doubled.
-/

namespace ScopedSql.Sql

/-- The characters that only separate tokens. -/
def isGap (c : Char) : Bool :=
  c == ' ' || c == '\t' || c == '\n' || c == '\r'

/-- The characters of comparison signs. -/
def isSign (c : Char) : Bool :=
  c == '=' || c == '!' || c == '<' || c == '>'

/-- The characters of numbers after the first one. -/
def isNumberRest (c : Char) : Bool :=
  c.isDigit || c == '.' || c == 'e' || c == 'E' || c == '+' || c == '-'

/-- The rest of a text literal after its opening quote: its text, and what comes after the closing
quote. -/
def readLiteral? : List Char → Option (List Char × List Char)
  | [] => none
  | '\x27' :: '\x27' :: rest => (readLiteral? rest).map fun (s, rest) => ('\x27' :: s, rest)
  | c :: rest =>
      if c = '\x27' then some ([], rest)
      else (readLiteral? rest).map fun (s, rest) => (c :: s, rest)

/-- **The first token** of a text that starts with no gap, and the rest of the text. -/
def readToken? (c : Char) (rest : List Char) : Option (Token × List Char) :=
  if c = '(' then some (.opening, rest)
  else if c = ')' then some (.closing, rest)
  else if c = ',' then some (.comma, rest)
  else if c = '*' then some (.star, rest)
  else if c = '\x27' then
    (readLiteral? rest).map fun (s, rest) => (.literal (String.ofList s), rest)
  else if c = '@' then
    some (.placeholder (String.ofList (c :: rest.takeWhile isIdentifierRest)),
      rest.dropWhile isIdentifierRest)
  else if isSign c then
    some (.sign (String.ofList (c :: rest.takeWhile isSign)), rest.dropWhile isSign)
  else if isIdentifierStart c then
    let name := c :: rest.takeWhile isIdentifierRest
    match rest.dropWhile isIdentifierRest with
    | '(' :: '*' :: ')' :: rest =>
        if name = ['C', 'O', 'U', 'N', 'T'] then some (.countAll, rest)
        else some (.word (String.ofList name), '(' :: '*' :: ')' :: rest)
    | rest => some (.word (String.ofList name), rest)
  else if c.isDigit || c == '-' then
    some (.number (String.ofList (c :: rest.takeWhile isNumberRest)), rest.dropWhile isNumberRest)
  else none

/-- The tokens of a text, with fuel for each token and gap. -/
def lexWithin : Nat → List Char → Option (List Token)
  | _, [] => some []
  | 0, _ :: _ => none
  | fuel + 1, c :: rest =>
      if isGap c then lexWithin fuel rest
      else
        match readToken? c rest with
        | none => none
        | some (t, rest) => (lexWithin fuel rest).map (t :: ·)

/-- **The tokens of a text.** Each token takes a character, so the length of the text is fuel
enough. -/
def lex (s : List Char) : Option (List Token) :=
  lexWithin s.length s

end ScopedSql.Sql
