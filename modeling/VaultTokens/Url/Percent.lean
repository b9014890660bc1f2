import VaultTokens.Text.Utf8

/-!
# Percent-encoding

A character that a part of a URL does not admit is written as its UTF-8 bytes, each a percent sign
and two hexadecimal digits. Which characters are admitted depends on the part: the sets below name
the ones that are not. Beyond ASCII no character is ever admitted.

Main statement: `decode_encode` says that decoding gives back the bytes of what was encoded, for
every set that encodes the percent sign.
-/

namespace VaultTokens.Url.Percent

open VaultTokens.Text

/-- A digit of a percent-encoded byte. -/
def hexDigit (n : Nat) : Char :=
  if n < 10 then Char.ofNat (48 + n) else Char.ofNat (55 + n)

/-- The value of a hexadecimal digit of either case. -/
def hexValue? (c : Char) : Option Nat :=
  let n := c.toNat
  if 48 ≤ n ∧ n ≤ 57 then some (n - 48)
  else if 65 ≤ n ∧ n ≤ 70 then some (n - 55)
  else if 97 ≤ n ∧ n ≤ 102 then some (n - 87)
  else none

/-- A byte as a percent sign and two digits. -/
def encodeByte (b : UInt8) : List Char :=
  ['%', hexDigit (b.toNat / 16), hexDigit (b.toNat % 16)]

/-- A character, percent-encoded if it is beyond ASCII or in the set. -/
def encodeChar (set : Char → Bool) (c : Char) : List Char :=
  if 0x80 ≤ c.toNat || set c then (Utf8.encodeChar c).flatMap encodeByte else [c]

/-- Text with every character beyond ASCII or in the set percent-encoded. -/
def encode (set : Char → Bool) (s : List Char) : List Char :=
  s.flatMap (encodeChar set)

/-- The bytes of text in which percent signs before two hexadecimal digits stand for bytes. -/
def decode : List Char → List UInt8
  | [] => []
  | [c] => Utf8.encodeChar c
  | [c, d] => Utf8.encodeChar c ++ Utf8.encodeChar d
  | c :: d :: e :: rest =>
    if c = '%' then
      match hexValue? d, hexValue? e with
      | some high, some low => UInt8.ofNat (high * 16 + low) :: decode rest
      | _, _ => Utf8.encodeChar c ++ decode (d :: e :: rest)
    else Utf8.encodeChar c ++ decode (d :: e :: rest)

/-- Control characters of ASCII. -/
def control (c : Char) : Bool := c.toNat < 0x20 || c.toNat = 0x7f

/-- What a fragment does not admit. -/
def fragment (c : Char) : Bool :=
  control c || c = ' ' || c = '\"' || c = '<' || c = '>' || c = '\x60'

/-- What no query admits. -/
def anyQuery (c : Char) : Bool :=
  control c || c = ' ' || c = '\"' || c = '#' || c = '<' || c = '>'

/-- What a query to a server does not admit. -/
def query (c : Char) : Bool := anyQuery c || c = '\x27'

/-- What a path does not admit. -/
def path (c : Char) : Bool :=
  fragment c || c = '#' || c = '?' || c = '\x7b' || c = '\x7d'

/-- What a segment that is appended to a path does not admit: also what would end the segment or
begin an escape. -/
def segment (c : Char) : Bool :=
  path c || c = '/' || c = '%' || c = '\\'

/-- What a user name or a password does not admit. -/
def user (c : Char) : Bool :=
  path c || c = '/' || c = ':' || c = ';' || c = '=' || c = '@' || c = '[' || c = '\\' ||
    c = ']' || c = '^' || c = '|'

theorem hexValue?_hexDigit {n : Nat} (h : n < 16) : hexValue? (hexDigit n) = some n := by
  have : ∀ m : Fin 16, hexValue? (hexDigit m) = some m.val := by decide
  exact this ⟨n, h⟩

/-- An encoded byte is decoded, whatever follows. -/
theorem decode_encodeByte_append (b : UInt8) (rest : List Char) :
    decode (encodeByte b ++ rest) = b :: decode rest := by
  have hb := b.toNat_lt
  have h1 : hexValue? (hexDigit (b.toNat / 16)) = some (b.toNat / 16) :=
    hexValue?_hexDigit (by omega)
  have h2 : hexValue? (hexDigit (b.toNat % 16)) = some (b.toNat % 16) :=
    hexValue?_hexDigit (by omega)
  have h3 : b.toNat / 16 * 16 + b.toNat % 16 = b.toNat := by omega
  simp [encodeByte, decode, h1, h2, h3]

theorem decode_encodeBytes_append (bytes : List UInt8) (rest : List Char) :
    decode (bytes.flatMap encodeByte ++ rest) = bytes ++ decode rest := by
  induction bytes with
  | nil => rfl
  | cons b bytes ih =>
    rw [List.flatMap_cons, List.append_assoc, decode_encodeByte_append, ih]
    rfl

/-- A character other than the percent sign stands for its own bytes. -/
theorem decode_cons_of_ne {c : Char} (hc : c ≠ '%') (rest : List Char) :
    decode (c :: rest) = Utf8.encodeChar c ++ decode rest := by
  match rest with
  | [] => simp [decode]
  | [d] => simp [decode]
  | d :: e :: rest => simp [decode, hc]

/-- Decoding gives back the bytes of what was encoded. -/
theorem decode_encode {set : Char → Bool} (hset : set '%' = true) (s : List Char) :
    decode (encode set s) = Utf8.encode s := by
  induction s with
  | nil => rfl
  | cons c s ih =>
    rw [encode, List.flatMap_cons, Utf8.encode, List.flatMap_cons]
    change decode (encodeChar set c ++ encode set s) = _
    rw [encodeChar]
    split
    · rw [decode_encodeBytes_append, ih]
      rfl
    · rename_i h
      have hc : c ≠ '%' := by
        rintro rfl
        simp [hset] at h
      rw [List.cons_append, List.nil_append, decode_cons_of_ne hc, ih]
      rfl

end VaultTokens.Url.Percent
