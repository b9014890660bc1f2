import VaultTokens.Text.Mark

/-!
# Directions of writing

Whether a character is written from left to right or from right to left. Digits are written from
left to right also within text of the other direction, neutral characters follow the text around
them, and marks follow the character before them.

A text goes *one way* if a reader cannot mistake the order of its characters, whatever stands beside
it: it begins with a letter, holds nothing of the other direction, ends in a letter or a digit, and
does not mix two kinds of digits.

The tables follow the property `Bidi_Class`. Code points without a character count as what is around
them.

Main statement: `direction_of_lt` (characters of ASCII are not written from right to left).
-/

namespace VaultTokens.Text

/-- How a character is written. -/
inductive Direction where
  /-- From left to right. -/
  | rightward
  /-- From right to left. -/
  | leftward
  /-- As a digit of an Arabic script. -/
  | arabicDigit
  /-- As another digit. -/
  | digit
  /-- Like the text around it. -/
  | neutral
  /-- Like the character before it. -/
  | mark
  deriving DecidableEq, Repr

/-- The first and last character of each run that is written from right to left. -/
def leftwardRuns : List (Nat × Nat) :=
  [(0x5be, 0x5f4), (0x608, 0x608), (0x60b, 0x60b), (0x60d, 0x60d), (0x61b, 0x64a), (0x66d, 0x6d5),
   (0x6e5, 0x6e6), (0x6ee, 0x6ef), (0x6fa, 0x7f5), (0x7fa, 0x8c9), (0xfbb2, 0xfbc2),
   (0xfe73, 0xfe73), (0x10800, 0x1091b), (0x10920, 0x10b35), (0x10b40, 0x10d23), (0x10d40, 0x10d4f),
   (0x10d6f, 0x10d8f), (0x10e80, 0x10ed0), (0x10f00, 0x10ff6), (0x1e800, 0x1ed3d)]

/-- The first and last character of each run of digits of Arabic scripts. -/
def arabicDigitRuns : List (Nat × Nat) :=
  [(0x660, 0x669), (0x66b, 0x66c), (0x10d30, 0x10d39), (0x10e60, 0x10e7e)]

/-- The first and last character of each run of other digits. -/
def digitRuns : List (Nat × Nat) :=
  [(0x6f0, 0x6f9), (0x102e1, 0x102fb)]

/-- The first and last character of each run without a direction of its own. -/
def neutralRuns : List (Nat × Nat) :=
  [(0xa1, 0xd7), (0xf7, 0xf7), (0x2b9, 0x2ba), (0x2c2, 0x2cf), (0x2d2, 0x2ed), (0x2ef, 0x2ff),
   (0x375, 0x375), (0x3f6, 0x3f6), (0x58a, 0x58f), (0x606, 0x607), (0x609, 0x60a), (0x60c, 0x60c),
   (0x60e, 0x60f), (0x66a, 0x66a), (0x6de, 0x6de), (0x6e9, 0x6e9), (0x7f6, 0x7f9), (0x9f2, 0x9f3),
   (0x9fb, 0x9fb), (0xaf1, 0xaf1), (0xbf3, 0xbfa), (0xc78, 0xc7e), (0xe3f, 0xe3f), (0xf3a, 0xf3d),
   (0x1390, 0x1399), (0x1400, 0x1400), (0x169b, 0x169c), (0x17db, 0x17db), (0x17f0, 0x180a),
   (0x1940, 0x1945), (0x19de, 0x19ff), (0x200c, 0x214d), (0x218a, 0x2335), (0x237b, 0x2394),
   (0x2396, 0x26ab), (0x26ad, 0x27ff), (0x2900, 0x2bff), (0x2ce5, 0x2cea), (0x2cf9, 0x2cff),
   (0x2e00, 0x3004), (0x3008, 0x3020), (0x3030, 0x3030), (0x3037, 0x3037), (0x303d, 0x303f),
   (0x30a0, 0x30a0), (0x30fb, 0x30fb), (0x31c0, 0x31e5), (0x4dc0, 0x4dff), (0xa490, 0xa4c6),
   (0xa60d, 0xa60f), (0xa673, 0xa67f), (0xa700, 0xa721), (0xa788, 0xa788), (0xa828, 0xa82b),
   (0xa838, 0xa839), (0xa874, 0xa877), (0xab6a, 0xab6b), (0xfbc3, 0xfe46), (0x10101, 0x10101),
   (0x10140, 0x1018c), (0x10190, 0x101a0), (0x1091f, 0x1091f), (0x10b39, 0x10b3f),
   (0x10d6e, 0x10d6e), (0x10ed1, 0x10ed8), (0x11052, 0x11065), (0x11660, 0x1166c),
   (0x11fd5, 0x11ff1), (0x16fe2, 0x16fe2), (0x1cc00, 0x1cef0), (0x1d1e9, 0x1d245),
   (0x1d300, 0x1d356), (0x1e2ff, 0x1e2ff), (0x1eef0, 0x1f12f), (0x1f16d, 0x1f16f),
   (0x1f1ad, 0x1f1ad), (0x1f260, 0x1fbfa)]

/-- Whether runs hold a character. -/
def isIn (runs : List (Nat × Nat)) (c : Char) : Bool :=
  runs.any fun r => r.1 ≤ c.toNat && c.toNat ≤ r.2

/-- The nonspacing marks that are written like letters. -/
def lettersAmongMarks : List Nat := [0xcbf, 0xcc6, 0x11a07, 0x11a08, 0x11c3f]

/-- Whether a character is written like the one before it. One spacing mark is. -/
def isFollowing (c : Char) : Bool :=
  isNonspacingMark c && !lettersAmongMarks.contains c.toNat || c.toNat = 0x1171e

/-- How a character is written. -/
def direction (c : Char) : Direction :=
  if c.toNat < 128 then
    if c.isAlpha then .rightward else if c.isDigit then .digit else .neutral
  else if isFollowing c then .mark
  else if isIn leftwardRuns c then .leftward
  else if isIn arabicDigitRuns c then .arabicDigit
  else if isIn digitRuns c then .digit
  else if isIn neutralRuns c then .neutral
  else .rightward

/-- Whether a character makes the text that it stands in one of both directions. -/
def isAgainst (c : Char) : Bool := direction c = .leftward || direction c = .arabicDigit

/-- Whether characters written in these ways go one way together. -/
def goOneWay (ways : List Direction) : Bool :=
  let last := (ways.reverse.dropWhile (· = .mark)).head?
  match ways.head? with
  | some .rightward =>
    ways.all ([Direction.rightward, .digit, .neutral, .mark].contains ·) &&
      last.any ([Direction.rightward, .digit].contains ·)
  | some .leftward =>
    ways.all ([Direction.leftward, .arabicDigit, .digit, .neutral, .mark].contains ·) &&
      last.any ([Direction.leftward, .arabicDigit, .digit].contains ·) &&
      !(ways.contains .digit && ways.contains .arabicDigit)
  | _ => false

/-- Whether a text goes one way; a text without characters does. -/
def isOneWay (s : List Char) : Bool := s.isEmpty || goOneWay (s.map direction)

/-- No character of ASCII is written from right to left. -/
theorem isAgainst_of_lt {c : Char} (h : c.toNat < 128) : isAgainst c = false := by
  rw [isAgainst, direction]
  rw [if_pos h]
  split
  · rfl
  · split <;> rfl

end VaultTokens.Text
