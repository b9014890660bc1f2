/-!
# Numerals and truth values in settings

A whole number is written in decimal digits, with an optional plus sign in front; it is refused if
it exceeds the word it is meant for. A truth value is written `true` or `false`.

Main statement: `toNat_of_readUInt64?` (a number read for a word fits the word).
-/

namespace VaultTokens.Text

/-- The number written in decimal digits behind `acc`, if every character is a digit. -/
def digitsFrom (acc : Nat) : List Char → Option Nat
  | [] => some acc
  | c :: rest => if c.isDigit then digitsFrom (acc * 10 + (c.toNat - 48)) rest else none

/-- The number that a numeral denotes: digits, at least one, behind an optional plus sign. -/
def readNat? : List Char → Option Nat
  | [] => none
  | '+' :: [] => none
  | '+' :: c :: rest => digitsFrom 0 (c :: rest)
  | c :: rest => digitsFrom 0 (c :: rest)

/-- A number of at most 64 bits. -/
def readUInt64? (s : String) : Option UInt64 :=
  (readNat? s.toList).bind fun n => if n < UInt64.size then some (UInt64.ofNat n) else none

/-- A number of at most 32 bits. -/
def readUInt32? (s : String) : Option UInt32 :=
  (readNat? s.toList).bind fun n => if n < UInt32.size then some (UInt32.ofNat n) else none

/-- A truth value. -/
def readBool? (s : String) : Option Bool :=
  if s = "true" then some true else if s = "false" then some false else none

/-- A number read for a word fits the word. -/
theorem toNat_of_readUInt64? {s : String} {w : UInt64} (h : readUInt64? s = some w) :
    readNat? s.toList = some w.toNat := by
  rw [readUInt64?] at h
  cases hn : readNat? s.toList with
  | none => simp [hn] at h
  | some n =>
    simp only [hn, Option.bind_some] at h
    split at h
    · rename_i hlt
      simp only [Option.some.injEq] at h
      subst h
      rw [UInt64.toNat_ofNat', Nat.mod_eq_of_lt hlt]
    · cases h

end VaultTokens.Text
