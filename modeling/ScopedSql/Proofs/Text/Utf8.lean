import ScopedSql.Text.Utf8

/-!
# Which bytes are text

`Spells` says which bytes are those of the character of a number, by the ranges of the bytes and without
the machine that reads them: a character takes one to four bytes, has no shorter form, is no surrogate
and is not above U+10FFFF. `WellFormed` bytes are those of some characters, one after the other.

The bytes of a character are read as that character, whatever follows them
(`Spells.decodeFrom_append`). So a text that is written is read back (`decode_encode`), and bytes that
are read are written back exactly if they are well formed (`encode_decode_eq_iff`).
-/

namespace ScopedSql.Text.Utf8

/-- A byte that goes on with a character. -/
def IsTail (b : UInt8) : Prop := 0x80 ≤ b.toNat ∧ b.toNat ≤ 0xBF

/-- **The bytes of the character of a number.** The first byte has the upper bits, and each further one
has six more. -/
inductive Spells : List UInt8 → Nat → Prop
  /-- Up to U+007F. -/
  | one {a : UInt8} : a.toNat ≤ 0x7F → Spells [a] a.toNat
  /-- Up to U+07FF, from U+0080 on. -/
  | two {a b : UInt8} : 0xC2 ≤ a.toNat → a.toNat ≤ 0xDF → IsTail b →
      Spells [a, b] ((a.toNat - 0xC0) * 64 + (b.toNat - 0x80))
  /-- Up to U+FFFF, from U+0800 on, without the surrogates. -/
  | three {a b c : UInt8} : 0xE0 ≤ a.toNat → a.toNat ≤ 0xEF → IsTail b → IsTail c →
      (a.toNat = 0xE0 → 0xA0 ≤ b.toNat) → (a.toNat = 0xED → b.toNat ≤ 0x9F) →
        Spells [a, b, c] (((a.toNat - 0xE0) * 64 + (b.toNat - 0x80)) * 64 + (c.toNat - 0x80))
  /-- Up to U+10FFFF, from U+10000 on. -/
  | four {a b c d : UInt8} : 0xF0 ≤ a.toNat → a.toNat ≤ 0xF4 → IsTail b → IsTail c → IsTail d →
      (a.toNat = 0xF0 → 0x90 ≤ b.toNat) → (a.toNat = 0xF4 → b.toNat ≤ 0x8F) →
        Spells [a, b, c, d] ((((a.toNat - 0xF0) * 64 + (b.toNat - 0x80)) * 64
          + (c.toNat - 0x80)) * 64 + (d.toNat - 0x80))

/-- **Well-formed UTF-8**: the bytes of some characters. -/
inductive WellFormed : List UInt8 → Prop
  /-- No character. -/
  | nil : WellFormed []
  /-- A character and what follows it. -/
  | cons {bytes rest : List UInt8} {n : Nat} :
      Spells bytes n → WellFormed rest → WellFormed (bytes ++ rest)

variable {bytes rest : List UInt8} {b : UInt8} {low high code owed n : Nat} {s : List Char}

/-! ### What is written -/

/-- The bytes in which the character of a number is written. -/
def bytesOf (n : Nat) : List UInt8 :=
  if n ≤ 0x7F then [.ofNat n]
  else if n ≤ 0x7FF then [.ofNat (n / 64 % 32 + 0xC0), .ofNat (n % 64 + 0x80)]
  else if n ≤ 0xFFFF then
    [.ofNat (n / 4096 % 16 + 0xE0), .ofNat (n / 64 % 64 + 0x80), .ofNat (n % 64 + 0x80)]
  else
    [.ofNat (n / 262144 % 8 + 0xF0), .ofNat (n / 4096 % 64 + 0x80), .ofNat (n / 64 % 64 + 0x80),
      .ofNat (n % 64 + 0x80)]

/-- A character is written in the bytes of its number. -/
theorem utf8EncodeChar_eq (c : Char) : String.utf8EncodeChar c = bytesOf c.toNat := rfl

/-- The number of the character of a number is that number, if there is such a character. -/
theorem toNat_ofNat (h : n.isValidChar) : (Char.ofNat n).toNat = n := by
  rw [Char.ofNat, dif_pos h]
  rfl

/-- A byte is the one of its number. -/
theorem ofNat_eq {n : Nat} (h : n = b.toNat) : UInt8.ofNat n = b := by
  rw [h, UInt8.ofNat_toNat]

/-- What is spelled is a character. -/
theorem Spells.isValidChar (h : Spells bytes n) : n.isValidChar := by
  rw [Nat.isValidChar]
  cases h with
  | one ha => omega
  | two ha ha' hb =>
      obtain ⟨hb, hb'⟩ := hb
      omega
  | three ha ha' hb hc hmin hmax =>
      obtain ⟨hb, hb'⟩ := hb
      obtain ⟨hc, hc'⟩ := hc
      omega
  | four ha ha' hb hc hd hmin hmax =>
      obtain ⟨hb, hb'⟩ := hb
      obtain ⟨hc, hc'⟩ := hc
      obtain ⟨hd, hd'⟩ := hd
      omega

/-- **What is spelled is written so.** -/
theorem Spells.bytesOf_eq (h : Spells bytes n) : bytesOf n = bytes := by
  unfold bytesOf
  cases h with
  | one ha => rw [if_pos ha, UInt8.ofNat_toNat]
  | two ha ha' hb =>
      obtain ⟨hb, hb'⟩ := hb
      rw [if_neg (by omega), if_pos (by omega)]
      simp only [List.cons.injEq, and_true]
      refine ⟨ofNat_eq ?_, ofNat_eq ?_⟩ <;> omega
  | three ha ha' hb hc hmin hmax =>
      obtain ⟨hb, hb'⟩ := hb
      obtain ⟨hc, hc'⟩ := hc
      rw [if_neg (by omega), if_neg (by omega), if_pos (by omega)]
      simp only [List.cons.injEq, and_true]
      refine ⟨ofNat_eq ?_, ofNat_eq ?_, ofNat_eq ?_⟩ <;> omega
  | four ha ha' hb hc hd hmin hmax =>
      obtain ⟨hb, hb'⟩ := hb
      obtain ⟨hc, hc'⟩ := hc
      obtain ⟨hd, hd'⟩ := hd
      rw [if_neg (by omega), if_neg (by omega), if_neg (by omega)]
      simp only [List.cons.injEq, and_true]
      refine ⟨ofNat_eq ?_, ofNat_eq ?_, ofNat_eq ?_, ofNat_eq ?_⟩ <;> omega

/-- Six bits behind the mark `10` are a byte that goes on with a character. -/
theorem isTail_ofNat (n : Nat) : IsTail (.ofNat (n % 64 + 0x80)) := by
  rw [IsTail, UInt8.toNat_ofNat']
  omega

/-- **Every character is spelled in the bytes in which it is written.** -/
theorem spells_bytesOf (h : n.isValidChar) : Spells (bytesOf n) n := by
  rw [Nat.isValidChar] at h
  -- the bits of the number come back from its bytes
  have hspells : ∀ {bytes m}, Spells bytes m → m = n → Spells bytes n := fun h hm => hm ▸ h
  unfold bytesOf
  split
  · refine hspells (.one ?_) ?_ <;> rw [UInt8.toNat_ofNat'] <;> omega
  · split
    · refine hspells (.two ?_ ?_ (isTail_ofNat n)) ?_ <;> simp only [UInt8.toNat_ofNat'] <;> omega
    · split
      · refine hspells (.three ?_ ?_ (isTail_ofNat _) (isTail_ofNat n) ?_ ?_) ?_ <;>
          simp only [UInt8.toNat_ofNat'] <;> omega
      · refine hspells (.four ?_ ?_ (isTail_ofNat _) (isTail_ofNat _) (isTail_ofNat n) ?_ ?_) ?_ <;>
          simp only [UInt8.toNat_ofNat'] <;> omega

/-! ### What is read -/

/-- The last byte of a character completes it. -/
theorem decodeFrom_last (hlow : low ≤ b.toNat) (hhigh : b.toNat ≤ high) :
    decodeFrom (.inside 0 low high code) (b :: rest) =
      Char.ofNat (code * 64 + (b.toNat - 0x80)) :: decodeFrom .between rest := by
  rw [decodeFrom, step, if_pos ⟨hlow, hhigh⟩]
  rfl

/-- A byte within a character has six of its bits. -/
theorem decodeFrom_more (hlow : low ≤ b.toNat) (hhigh : b.toNat ≤ high) :
    decodeFrom (.inside (owed + 1) low high code) (b :: rest) =
      decodeFrom (.inside owed 0x80 0xBF (code * 64 + (b.toNat - 0x80))) rest := by
  rw [decodeFrom, step, if_pos ⟨hlow, hhigh⟩]
  rfl

/-- A first byte below 80 is a character of its own. -/
theorem first_one {a : Nat} (h : a ≤ 0x7F) : first a = ([Char.ofNat a], .between) :=
  if_pos (by omega)

/-- A first byte from C2 to DF is that of two. -/
theorem first_two {a : Nat} (h : 0xC2 ≤ a) (h' : a ≤ 0xDF) :
    first a = ([], .inside 0 0x80 0xBF (a - 0xC0)) := by
  rw [first, if_neg (by omega), if_neg (by omega), if_pos (by omega)]

/-- A first byte from E0 to EF is that of three; some second bytes are kept out. -/
theorem first_three {a : Nat} (h : 0xE0 ≤ a) (h' : a ≤ 0xEF) :
    first a = ([], .inside 1 (if a = 0xE0 then 0xA0 else 0x80) (if a = 0xED then 0x9F else 0xBF)
      (a - 0xE0)) := by
  grind [first]

/-- A first byte from F0 to F4 is that of four; some second bytes are kept out. -/
theorem first_four {a : Nat} (h : 0xF0 ≤ a) (h' : a ≤ 0xF4) :
    first a = ([], .inside 2 (if a = 0xF0 then 0x90 else 0x80) (if a = 0xF4 then 0x8F else 0xBF)
      (a - 0xF0)) := by
  grind [first]

/-- **What is spelled is read as its character**, whatever follows. -/
theorem Spells.decodeFrom_append (h : Spells bytes n) (rest : List UInt8) :
    decodeFrom .between (bytes ++ rest) = Char.ofNat n :: decodeFrom .between rest := by
  cases h with
  | one ha =>
      rw [List.singleton_append, decodeFrom, step, first_one ha]
      rfl
  | two ha ha' hb =>
      rw [List.cons_append, decodeFrom, step, first_two ha ha']
      exact decodeFrom_last hb.1 hb.2
  | three ha ha' hb hc hmin hmax =>
      rw [List.cons_append, decodeFrom, step, first_three ha ha']
      refine (decodeFrom_more ?_ ?_).trans (decodeFrom_last hc.1 hc.2)
      · split
        · exact hmin ‹_›
        · exact hb.1
      · split
        · exact hmax ‹_›
        · exact hb.2
  | four ha ha' hb hc hd hmin hmax =>
      rw [List.cons_append, decodeFrom, step, first_four ha ha']
      refine (decodeFrom_more ?_ ?_).trans
        ((decodeFrom_more hc.1 hc.2).trans (decodeFrom_last hd.1 hd.2))
      · split
        · exact hmin ‹_›
        · exact hb.1
      · split
        · exact hmax ‹_›
        · exact hb.2

/-! ### Texts -/

/-- What is spelled is written in these bytes. -/
theorem Spells.utf8EncodeChar_ofNat (h : Spells bytes n) :
    String.utf8EncodeChar (Char.ofNat n) = bytes := by
  rw [utf8EncodeChar_eq, toNat_ofNat h.isValidChar, h.bytesOf_eq]

/-- A character is spelled in the bytes in which it is written. -/
theorem spells_utf8EncodeChar (c : Char) : Spells (String.utf8EncodeChar c) c.toNat :=
  spells_bytesOf c.valid

@[simp] theorem encode_nil : encode [] = [] := rfl

@[simp] theorem encode_cons (c : Char) (s : List Char) :
    encode (c :: s) = String.utf8EncodeChar c ++ encode s :=
  List.flatMap_cons

/-- **A text that is written is read back.** -/
theorem decode_encode (s : List Char) : decode (encode s) = s := by
  induction s with
  | nil => rfl
  | cons c s ih =>
      rw [encode_cons, decode, (spells_utf8EncodeChar c).decodeFrom_append, Char.ofNat_toNat]
      exact congrArg _ ih

/-- A text is written in well-formed bytes. -/
theorem wellFormed_encode (s : List Char) : WellFormed (encode s) := by
  induction s with
  | nil => exact .nil
  | cons c s ih => exact .cons (spells_utf8EncodeChar c) ih

/-- **Bytes are written back exactly if they are well formed.** -/
theorem encode_decode_eq_iff : encode (decode bytes) = bytes ↔ WellFormed bytes := by
  constructor
  · intro h
    rw [← h]
    exact wellFormed_encode _
  · intro h
    induction h with
    | nil => rfl
    | cons hspells _ ih =>
        rw [decode, hspells.decodeFrom_append, encode_cons, hspells.utf8EncodeChar_ofNat]
        exact congrArg _ ih

end ScopedSql.Text.Utf8
