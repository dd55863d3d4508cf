/-!
# SQL as tokens

Statements are built as lists of tokens and written by `render`, which puts one space between
neighbours except after an opening parenthesis and before a closing one or a comma. Everything
that a caller can choose the text of has its own kind of token: names, literals, placeholders and
operators that are passed on verbatim.
-/

namespace ScopedSql.Sql

/-- **A token** of SQL text. -/
inductive Token where
  /-- A keyword or a name. -/
  | word (text : String)
  /-- A numeric literal with its sign. -/
  | number (text : String)
  /-- A text literal. -/
  | literal (text : String)
  /-- A placeholder with its leading mark. -/
  | placeholder (name : String)
  /-- A comparison sign. -/
  | sign (text : String)
  /-- An operator passed on as it stands. -/
  | verbatim (text : String)
  /-- An opening parenthesis. -/
  | opening
  /-- A closing parenthesis. -/
  | closing
  /-- A comma. -/
  | comma
  /-- All columns. -/
  | star
  /-- The number of rows. -/
  | countAll
  deriving DecidableEq, Repr

/-- A text between single quotes: a quote inside it is written twice. -/
def quoteLiteral (s : List Char) : List Char :=
  ['\x27'] ++ s.flatMap (fun c => if c = '\x27' then [c, c] else [c]) ++ ['\x27']

/-- The characters of a token. -/
def Token.chars : Token → List Char
  | .word text => text.toList
  | .number text => text.toList
  | .literal text => quoteLiteral text.toList
  | .placeholder name => name.toList
  | .sign text => text.toList
  | .verbatim text => text.toList
  | .opening => ['(']
  | .closing => [')']
  | .comma => [',']
  | .star => ['*']
  | .countAll => ['C', 'O', 'U', 'N', 'T', '(', '*', ')']

/-- Whether no space stands between two neighbours. -/
def Token.tight (a b : Token) : Bool :=
  a == .opening || b == .closing || b == .comma

/-- **The characters of a list of tokens.** -/
def render : List Token → List Char
  | [] => []
  | [t] => t.chars
  | a :: b :: rest => a.chars ++ (if a.tight b then [] else [' ']) ++ render (b :: rest)

/-- The SQL text of a list of tokens. -/
def textOf (ts : List Token) : String :=
  String.ofList (render ts)

/-! ### Building lists of tokens -/

/-- Keywords. -/
def keywords (ws : List String) : List Token :=
  ws.map .word

/-- Lists of tokens with a separator between them. -/
def separated (separator : List Token) : List (List Token) → List Token
  | [] => []
  | [part] => part
  | part :: rest => part ++ separator ++ separated separator rest

/-- Lists of tokens with commas between them. -/
def commaSeparated (parts : List (List Token)) : List Token :=
  separated [.comma] parts

/-- A list of at least two parts: the first one, a comma, and the others. -/
theorem commaSeparated_cons_cons (part next : List Token) (parts : List (List Token)) :
    commaSeparated (part :: next :: parts) = part ++ .comma :: commaSeparated (next :: parts) := by
  simp [commaSeparated, separated]

/-- Tokens in parentheses. -/
def parenthesized (ts : List Token) : List Token :=
  .opening :: ts ++ [.closing]

/-- Names with commas between them, in parentheses. -/
def nameList (names : List String) : List Token :=
  parenthesized (commaSeparated (names.map fun n => [.word n]))

end ScopedSql.Sql
