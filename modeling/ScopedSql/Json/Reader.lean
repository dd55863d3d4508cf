import ScopedSql.Json.Document

/-!
# Reading JSON text

A reader for JSON text that keeps the order of members. Each function takes what it reads from
the front of the text and returns the rest. Nesting is followed with fuel, one unit for each
value or separator; the length of the text is always enough, since each of them takes a
character.
-/

namespace ScopedSql.Json

/-- The blanks that JSON allows between tokens. -/
def isSpace (c : Char) : Bool :=
  c == ' ' || c == '\t' || c == '\n' || c == '\r'

/-- The text after its leading blanks. -/
def skipSpace (s : List Char) : List Char :=
  s.dropWhile isSpace

/-- The text after a given beginning. -/
def after? (front : List Char) (s : List Char) : Option (List Char) :=
  match front, s with
  | [], s => some s
  | _ :: _, [] => none
  | f :: front, c :: s => if f = c then after? front s else none

/-! ### Strings -/

/-- The value of a hexadecimal digit. -/
def hexValue? (c : Char) : Option Nat :=
  if '0' ≤ c ∧ c ≤ '9' then some (c.toNat - '0'.toNat)
  else if 'a' ≤ c ∧ c ≤ 'f' then some (c.toNat - 'a'.toNat + 10)
  else if 'A' ≤ c ∧ c ≤ 'F' then some (c.toNat - 'A'.toNat + 10)
  else none

/-- Four hexadecimal digits as a 16-bit unit. -/
def readUnit? : List Char → Option (Nat × List Char)
  | a :: b :: c :: d :: rest => do
      let a ← hexValue? a
      let b ← hexValue? b
      let c ← hexValue? c
      let d ← hexValue? d
      some (((a * 16 + b) * 16 + c) * 16 + d, rest)
  | _ => none

/-- A code point after a backslash and a `u`: one unit, or the two units of a surrogate pair. A
lone surrogate is no character. -/
def readCodePoint? (s : List Char) : Option (Char × List Char) := do
  let (u, rest) ← readUnit? s
  if u < 0xD800 ∨ 0xE000 ≤ u then some (Char.ofNat u, rest)
  else if 0xDC00 ≤ u then none
  else
    let rest ← after? ['\\', 'u'] rest
    let (v, rest) ← readUnit? rest
    if 0xDC00 ≤ v ∧ v < 0xE000 then
      some (Char.ofNat (0x10000 + (u - 0xD800) * 0x400 + (v - 0xDC00)), rest)
    else none

/-- The character that a short escape stands for. -/
def shortEscape? (c : Char) : Option Char :=
  match c with
  | '\x22' => some '\x22'
  | '\\' => some '\\'
  | '/' => some '/'
  | 'b' => some '\x08'
  | 'f' => some '\x0c'
  | 'n' => some '\n'
  | 'r' => some '\r'
  | 't' => some '\t'
  | _ => none

/-- The rest of a string after its opening quote. The characters read so far are held in
reverse. -/
def readString? : Nat → List Char → List Char → Option (String × List Char)
  | 0, _, _ => none
  | _ + 1, _, [] => none
  | fuel + 1, done, c :: rest =>
      if c = '\x22' then some (String.ofList done.reverse, rest)
      else if c = '\\' then
        match rest with
        | [] => none
        | e :: rest =>
            if e = 'u' then
              match readCodePoint? rest with
              | none => none
              | some (c, rest) => readString? fuel (c :: done) rest
            else
              match shortEscape? e with
              | none => none
              | some c => readString? fuel (c :: done) rest
      else if c.toNat < 0x20 then none
      else readString? fuel (c :: done) rest

/-! ### Numbers -/

/-- The number that a run of decimal digits stands for. -/
def digitsValue (ds : List Char) : Nat :=
  ds.foldl (fun n d => n * 10 + (d.toNat - '0'.toNat)) 0

/-- The exponent part of a number, if there is one. -/
def readExponent? (s : List Char) : Option (Option Int × List Char) :=
  match s with
  | c :: rest =>
      if c = 'e' ∨ c = 'E' then
        let (negative, rest) := match rest with
          | '-' :: rest => (true, rest)
          | '+' :: rest => (false, rest)
          | rest => (false, rest)
        let ds := rest.takeWhile Char.isDigit
        if ds.isEmpty then none
        else
          let n : Int := digitsValue ds
          some (some (if negative then -n else n), rest.dropWhile Char.isDigit)
      else some (none, s)
  | [] => some (none, [])

/-- The fraction part of a number, if there is one. -/
def readFraction? (s : List Char) : Option (Option (List Char) × List Char) :=
  match s with
  | '.' :: rest =>
      let ds := rest.takeWhile Char.isDigit
      if ds.isEmpty then none else some (some ds, rest.dropWhile Char.isDigit)
  | _ => some (none, s)

/-- **A number.** Without fraction and exponent it is whole where a word holds it; minus zero and
all other numbers are doubles, and one beyond the finite doubles is refused. -/
def readNumber? (s : List Char) : Option (Number × List Char) := do
  let (negative, s) := match s with
    | '-' :: rest => (true, rest)
    | s => (false, s)
  let whole := s.takeWhile Char.isDigit
  if whole.isEmpty ∨ (whole.head? = some '0' ∧ 1 < whole.length) then none
  else
    let (fraction, s) ← readFraction? (s.dropWhile Char.isDigit)
    let (exponent, s) ← readExponent? s
    let value := digitsValue whole
    if fraction.isNone ∧ exponent.isNone ∧ ¬ (negative ∧ value = 0) then
      some (Number.ofInt (if negative then -(value : Int) else value), s)
    else
      let places := fraction.getD []
      let x := Binary64.ofDecimal negative (digitsValue (whole ++ places))
        (exponent.getD 0 - places.length)
      if x.isFinite then some (.real x, s) else none

/-! ### Documents -/

mutual

/-- A document at the front of a text that starts with no blank. -/
def readValue? : Nat → List Char → Option (Document × List Char)
  | 0, _ => none
  | fuel + 1, s =>
      match s with
      | [] => none
      | '\x22' :: rest => (readString? rest.length [] rest).map fun (t, rest) => (.text t, rest)
      | '[' :: rest =>
          match skipSpace rest with
          | ']' :: rest => some (.array [], rest)
          | rest => readItems? fuel [] rest
      | '\x7b' :: rest =>
          match skipSpace rest with
          | '\x7d' :: rest => some (.object [], rest)
          | rest => readMembers? fuel [] rest
      | 'n' :: rest => (after? ['u', 'l', 'l'] rest).map (.null, ·)
      | 't' :: rest => (after? ['r', 'u', 'e'] rest).map (.bool true, ·)
      | 'f' :: rest => (after? ['a', 'l', 's', 'e'] rest).map (.bool false, ·)
      | s => (readNumber? s).map fun (n, rest) => (.number n, rest)

/-- The items of a list up to its closing bracket; the items before are held in reverse. -/
def readItems? : Nat → List Document → List Char → Option (Document × List Char)
  | 0, _, _ => none
  | fuel + 1, done, s =>
      match readValue? fuel s with
      | none => none
      | some (d, rest) =>
          match skipSpace rest with
          | ',' :: rest => readItems? fuel (d :: done) (skipSpace rest)
          | ']' :: rest => some (.array (d :: done).reverse, rest)
          | _ => none

/-- The members of an object up to its closing brace; the members before are held in reverse. -/
def readMembers? : Nat → List (String × Document) → List Char → Option (Document × List Char)
  | 0, _, _ => none
  | fuel + 1, done, s =>
      match s with
      | '\x22' :: rest =>
          match readString? rest.length [] rest with
          | none => none
          | some (key, rest) =>
              match skipSpace rest with
              | ':' :: rest =>
                  match readValue? fuel (skipSpace rest) with
                  | none => none
                  | some (d, rest) =>
                      match skipSpace rest with
                      | ',' :: rest => readMembers? fuel ((key, d) :: done) (skipSpace rest)
                      | '\x7d' :: rest => some (.object ((key, d) :: done).reverse, rest)
                      | _ => none
              | _ => none
      | _ => none

end

/-- **Reading a document**: the whole text is one document with blanks around it. -/
def Document.parse? (text : String) : Option Document :=
  let s := skipSpace text.toList
  match readValue? (s.length + 1) s with
  | some (d, rest) => if (skipSpace rest).isEmpty then some d else none
  | none => none

end ScopedSql.Json
