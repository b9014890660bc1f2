/-!
# UTF-8

Bytes as characters. Reading never fails: bytes that are no UTF-8 are read as *gaps*, one for every
longest run that could still have begun a character. What a reader makes of a gap is its own choice:
a strict one refuses it, a lenient one puts a replacement character in its place, and a reader of
JSON skips it where it skips the value.

Main statements: `decode_encode` (reading gives back what was written) and
`decodeStrict_encode`.
-/

namespace VaultTokens.Text.Utf8

/-- A character as bytes. -/
def encodeChar (c : Char) : List UInt8 :=
  let n := c.toNat
  if n < 0x80 then [UInt8.ofNat n]
  else if n < 0x800 then [UInt8.ofNat (0xc0 + n / 64), UInt8.ofNat (0x80 + n % 64)]
  else if n < 0x10000 then
    [UInt8.ofNat (0xe0 + n / 4096), UInt8.ofNat (0x80 + n / 64 % 64), UInt8.ofNat (0x80 + n % 64)]
  else
    [UInt8.ofNat (0xf0 + n / 262144), UInt8.ofNat (0x80 + n / 4096 % 64),
      UInt8.ofNat (0x80 + n / 64 % 64), UInt8.ofNat (0x80 + n % 64)]

/-- Text as bytes. -/
def encode (s : List Char) : List UInt8 := s.flatMap encodeChar

/-- What a first byte calls for: how many further bytes, the bounds of the next one, and the bits
it contributes itself. -/
structure Lead where
  /-- How many bytes follow. -/
  more : Nat
  /-- The least value of the next byte. -/
  low : Nat
  /-- The greatest value of the next byte. -/
  high : Nat
  /-- The bits of the first byte. -/
  bits : Nat

/-- The reading of a first byte, if a character can begin with it. The bounds of the second byte
rule out overlong forms, surrogates and code points beyond the last one. -/
def lead? (b : Nat) : Option Lead :=
  if b < 0x80 then some ⟨0, 0, 0, b⟩
  else if b < 0xc2 then none
  else if b < 0xe0 then some ⟨1, 0x80, 0xbf, b - 0xc0⟩
  else if b = 0xe0 then some ⟨2, 0xa0, 0xbf, 0⟩
  else if b = 0xed then some ⟨2, 0x80, 0x9f, 0xd⟩
  else if b < 0xf0 then some ⟨2, 0x80, 0xbf, b - 0xe0⟩
  else if b = 0xf0 then some ⟨3, 0x90, 0xbf, 0⟩
  else if b < 0xf4 then some ⟨3, 0x80, 0xbf, b - 0xf0⟩
  else if b = 0xf4 then some ⟨3, 0x80, 0x8f, 4⟩
  else none

/-- Reads `more` further bytes, the next of them between `low` and `high`: the code point and what
is left, or `none` and what is left from the byte that does not fit. -/
def follow (bits : Nat) : Nat → Nat → Nat → List UInt8 → Option Nat × List UInt8
  | 0, _, _, rest => (some bits, rest)
  | _ + 1, _, _, [] => (none, [])
  | more + 1, low, high, b :: rest =>
    if low ≤ b.toNat ∧ b.toNat ≤ high then
      follow (bits * 64 + (b.toNat - 0x80)) more 0x80 0xbf rest
    else (none, b :: rest)

theorem length_follow_le (bits more low high : Nat) (rest : List UInt8) :
    (follow bits more low high rest).2.length ≤ rest.length := by
  induction more generalizing bits low high rest with
  | zero => simp [follow]
  | succ more ih =>
    cases rest with
    | nil => simp [follow]
    | cons b rest =>
      rw [follow]
      split
      · have := ih (bits * 64 + (b.toNat - 0x80)) 0x80 0xbf rest
        simp only [List.length_cons]
        omega
      · simp

/-- The first character or gap of bytes that begin with `b`, and what is left. -/
def step (b : UInt8) (rest : List UInt8) : Option Char × List UInt8 :=
  match lead? b.toNat with
  | none => (none, rest)
  | some l =>
    let (point, rest) := follow l.bits l.more l.low l.high rest
    (point.map Char.ofNat, rest)

theorem length_step_le (b : UInt8) (rest : List UInt8) : (step b rest).2.length ≤ rest.length := by
  rw [step]
  split
  · simp
  · exact length_follow_le ..

/-- Bytes as characters and gaps. -/
def decode : List UInt8 → List (Option Char)
  | [] => []
  | b :: rest => (step b rest).1 :: decode (step b rest).2
termination_by bytes => bytes.length
decreasing_by
  have := length_step_le b rest
  simp only [List.length_cons]
  omega

/-- The text of bytes without gaps. -/
def decodeStrict (bytes : List UInt8) : Option (List Char) :=
  (decode bytes).mapM id

/-- The text of bytes, a gap read as the replacement character. -/
def decodeLossy (bytes : List UInt8) : List Char :=
  (decode bytes).map (·.getD '\ufffd')

theorem decode_cons (b : UInt8) (rest : List UInt8) :
    decode (b :: rest) = (step b rest).1 :: decode (step b rest).2 := by
  rw [decode]

private theorem toNat_byte {n : Nat} (h : n < 256) : (UInt8.ofNat n).toNat = n := by
  rw [UInt8.toNat_ofNat']
  exact Nat.mod_eq_of_lt h

private theorem lt_two_pow_of_char (c : Char) :
    c.toNat < 0xd800 ∨ (0xdfff < c.toNat ∧ c.toNat < 0x110000) :=
  c.valid

/-- A written character is read back, whatever follows. -/
theorem step_encodeChar (c : Char) (rest : List UInt8) :
    ∃ b more, encodeChar c = b :: more ∧ step b (more ++ rest) = (some c, rest) := by
  have hv := lt_two_pow_of_char c
  have hc : Char.ofNat c.toNat = c := Char.ofNat_toNat c
  generalize hn : c.toNat = n at hv hc
  rw [encodeChar]
  simp only [hn]
  split
  · refine ⟨_, _, rfl, ?_⟩
    simp [step, lead?, follow, toNat_byte (show n < 256 by omega), *]
  split
  · refine ⟨_, _, rfl, ?_⟩
    have h1 : (UInt8.ofNat (0xc0 + n / 64)).toNat = 0xc0 + n / 64 := toNat_byte (by omega)
    have h2 : (UInt8.ofNat (0x80 + n % 64)).toNat = 0x80 + n % 64 := toNat_byte (by omega)
    have hl : lead? (0xc0 + n / 64) = some ⟨1, 0x80, 0xbf, n / 64⟩ := by
      simp only [lead?]
      rw [if_neg (by omega), if_neg (by omega), if_pos (by omega)]
      simp
    simp only [step, h1, hl, List.cons_append, List.nil_append, follow, h2]
    rw [if_pos (by omega)]
    have : n / 64 * 64 + (0x80 + n % 64 - 0x80) = n := by omega
    simp only [this, Option.map_some, hc]
  split
  · refine ⟨_, _, rfl, ?_⟩
    have h1 : (UInt8.ofNat (0xe0 + n / 4096)).toNat = 0xe0 + n / 4096 := toNat_byte (by omega)
    have h2 : (UInt8.ofNat (0x80 + n / 64 % 64)).toNat = 0x80 + n / 64 % 64 :=
      toNat_byte (by omega)
    have h3 : (UInt8.ofNat (0x80 + n % 64)).toNat = 0x80 + n % 64 := toNat_byte (by omega)
    obtain ⟨low, high, hl, hlow, hhigh⟩ : ∃ low high,
        lead? (0xe0 + n / 4096) = some ⟨2, low, high, n / 4096⟩ ∧
          low ≤ 0x80 + n / 64 % 64 ∧ 0x80 + n / 64 % 64 ≤ high := by
      simp only [lead?]
      rw [if_neg (by omega), if_neg (by omega), if_neg (by omega)]
      split
      · exact ⟨0xa0, 0xbf, by simp; omega, by omega, by omega⟩
      split
      · exact ⟨0x80, 0x9f, by simp; omega, by omega, by omega⟩
      · rw [if_pos (by omega)]
        exact ⟨0x80, 0xbf, by simp, by omega, by omega⟩
    simp only [step, h1, hl, List.cons_append, List.nil_append, follow, h2, h3]
    rw [if_pos ⟨hlow, hhigh⟩, if_pos (by omega)]
    have : (n / 4096 * 64 + (0x80 + n / 64 % 64 - 0x80)) * 64 + (0x80 + n % 64 - 0x80) = n := by
      omega
    simp only [this, Option.map_some, hc]
  · refine ⟨_, _, rfl, ?_⟩
    have h1 : (UInt8.ofNat (0xf0 + n / 262144)).toNat = 0xf0 + n / 262144 :=
      toNat_byte (by omega)
    have h2 : (UInt8.ofNat (0x80 + n / 4096 % 64)).toNat = 0x80 + n / 4096 % 64 :=
      toNat_byte (by omega)
    have h3 : (UInt8.ofNat (0x80 + n / 64 % 64)).toNat = 0x80 + n / 64 % 64 :=
      toNat_byte (by omega)
    have h4 : (UInt8.ofNat (0x80 + n % 64)).toNat = 0x80 + n % 64 := toNat_byte (by omega)
    obtain ⟨low, high, hl, hlow, hhigh⟩ : ∃ low high,
        lead? (0xf0 + n / 262144) = some ⟨3, low, high, n / 262144⟩ ∧
          low ≤ 0x80 + n / 4096 % 64 ∧ 0x80 + n / 4096 % 64 ≤ high := by
      simp only [lead?]
      rw [if_neg (by omega), if_neg (by omega), if_neg (by omega), if_neg (by omega),
        if_neg (by omega), if_neg (by omega)]
      split
      · exact ⟨0x90, 0xbf, by simp; omega, by omega, by omega⟩
      split
      · exact ⟨0x80, 0xbf, by simp, by omega, by omega⟩
      · rw [if_pos (by omega)]
        exact ⟨0x80, 0x8f, by simp; omega, by omega, by omega⟩
    simp only [step, h1, hl, List.cons_append, List.nil_append, follow, h2, h3, h4]
    rw [if_pos ⟨hlow, hhigh⟩, if_pos (by omega), if_pos (by omega)]
    have : ((n / 262144 * 64 + (0x80 + n / 4096 % 64 - 0x80)) * 64
        + (0x80 + n / 64 % 64 - 0x80)) * 64 + (0x80 + n % 64 - 0x80) = n := by
      omega
    simp only [this, Option.map_some, hc]

/-- Reading gives back what was written, without a gap. -/
theorem decode_encode_append (s : List Char) (rest : List UInt8) :
    decode (encode s ++ rest) = s.map some ++ decode rest := by
  induction s with
  | nil => simp [encode]
  | cons c s ih =>
    obtain ⟨b, more, hb, hstep⟩ := step_encodeChar c (encode s ++ rest)
    have : encode (c :: s) ++ rest = b :: (more ++ (encode s ++ rest)) := by
      simp [encode, hb]
    rw [this, decode_cons, hstep, ih]
    simp

theorem decode_encode (s : List Char) : decode (encode s) = s.map some := by
  simpa [decode] using decode_encode_append s []

theorem decodeStrict_encode (s : List Char) : decodeStrict (encode s) = some s := by
  rw [decodeStrict, decode_encode]
  induction s with
  | nil => rfl
  | cons c s ih => simp [List.mapM_cons, ih]

theorem decodeLossy_encode (s : List Char) : decodeLossy (encode s) = s := by
  simp [decodeLossy, decode_encode, Function.comp_def]

end VaultTokens.Text.Utf8
