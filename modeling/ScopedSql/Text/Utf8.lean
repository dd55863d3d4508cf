/-!
# UTF-8, read leniently

`decode` reads any sequence of bytes as text. It runs a machine over the bytes (`State`, `step`)
that stands either between characters or inside one, where it knows how many bytes are still owed
and which values the next one may have. A byte that the machine cannot take ends the character
that was begun, which becomes one U+FFFD, and is then read as a first byte; so each maximal
beginning of a character that goes no further, and each byte that begins none, is replaced by
exactly one U+FFFD.

`encode` is the ordinary encoding of text as UTF-8.
-/

namespace ScopedSql.Text.Utf8

/-- The character put in the place of bytes that are no text. -/
def replacement : Char := '\uFFFD'

/-- Where the machine stands: between characters, or inside one. Inside, `owed + 1` more bytes
are due, the next of them between `low` and `high`, and `code` holds the bits read so far. -/
inductive State where
  /-- Between characters. -/
  | between
  /-- Inside a character. -/
  | inside (owed low high code : Nat)
  deriving DecidableEq, Repr

/-- **A first byte**: the characters that it completes and the state after it. The ranges keep
out overlong forms, surrogates and numbers above U+10FFFF. -/
def first (b : Nat) : List Char × State :=
  if b < 0x80 then ([Char.ofNat b], .between)
  else if b < 0xC2 then ([replacement], .between)
  else if b < 0xE0 then ([], .inside 0 0x80 0xBF (b - 0xC0))
  else if b = 0xE0 then ([], .inside 1 0xA0 0xBF 0)
  else if b = 0xED then ([], .inside 1 0x80 0x9F 0xD)
  else if b < 0xF0 then ([], .inside 1 0x80 0xBF (b - 0xE0))
  else if b = 0xF0 then ([], .inside 2 0x90 0xBF 0)
  else if b < 0xF4 then ([], .inside 2 0x80 0xBF (b - 0xF0))
  else if b = 0xF4 then ([], .inside 2 0x80 0x8F 4)
  else ([replacement], .between)

/-- **One byte**: the characters that it completes and the state after it. -/
def step : State → Nat → List Char × State
  | .between, b => first b
  | .inside owed low high code, b =>
      if low ≤ b ∧ b ≤ high then
        match owed with
        | 0 => ([Char.ofNat (code * 64 + (b - 0x80))], .between)
        | owed + 1 => ([], .inside owed 0x80 0xBF (code * 64 + (b - 0x80)))
      else (replacement :: (first b).1, (first b).2)

/-- What is left to say when the bytes end: a character that was begun is replaced. -/
def State.flush : State → List Char
  | .between => []
  | .inside .. => [replacement]

/-- The characters read from a state on. -/
def decodeFrom (q : State) : List UInt8 → List Char
  | [] => q.flush
  | b :: rest => (step q b.toNat).1 ++ decodeFrom (step q b.toNat).2 rest

/-- **Lenient reading** of bytes as text. -/
def decode (bytes : List UInt8) : List Char :=
  decodeFrom .between bytes

/-- The bytes of a text. -/
def encode (s : List Char) : List UInt8 :=
  s.flatMap String.utf8EncodeChar

end ScopedSql.Text.Utf8
