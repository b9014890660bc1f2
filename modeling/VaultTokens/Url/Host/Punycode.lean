/-!
# Punycode

Text of any script, written with letters, digits and hyphens. The characters of ASCII come first, up
to the last hyphen. Behind it stands a number for each of the other characters, in the order of
their code points: how many places to go on before it is put in. Whoever has gone round the text
goes on at its front, to the next code point.

The numbers have no marks between them. Each digit is weighed by where it stands, and a digit below
the threshold of its place ends the number. The thresholds follow the size of the numbers before, by
way of a bias.

A writer goes through the text once for each code point in it, counts the places that it passes, and
writes a number wherever it meets that code point.

Main statement: `length_readJump?` (a number is never empty).
-/

namespace VaultTokens.Url.Punycode

/-- The value of a digit, either case. -/
def digit? (c : Char) : Option Nat :=
  if c.isLower then some (c.toNat - 97)
  else if c.isUpper then some (c.toNat - 65)
  else if c.isDigit then some (c.toNat - 22)
  else none

/-- The threshold of the place that weighs so much; places come in steps of thirty-six. -/
def threshold (place bias : Nat) : Nat :=
  if place ≤ bias then 1 else if bias + 26 ≤ place then 26 else place - bias

/-- A number, if thirty-two bits hold it. -/
def fit? (n : Nat) : Option Nat := if n < UInt32.size then some n else none

/-- How far the number at the front of a text leads from some place, and what is behind it. -/
def readJump? (bias : Nat) : Nat → Nat → Nat → List Char → Option (Nat × List Char)
  | _, _, _, [] => none
  | place, weight, start, c :: rest =>
    match digit? c with
    | none => none
    | some d =>
      match fit? (start + d * weight) with
      | none => none
      | some stop =>
        if d < threshold place bias then some (stop, rest)
        else
          match fit? (weight * (36 - threshold place bias)) with
          | none => none
          | some weight => readJump? bias (place + 36) weight stop rest

/-- A number is made of one digit at least. -/
theorem length_readJump? {bias : Nat} {s : List Char} {place weight start : Nat}
    {r : Nat × List Char} (h : readJump? bias place weight start s = some r) :
    r.2.length < s.length := by
  induction s generalizing place weight start with
  | nil => simp [readJump?] at h
  | cons c s ih =>
    rw [readJump?] at h
    split at h
    · cases h
    · split at h
      · cases h
      · split at h
        · rw [← Option.some.inj h]
          simp
        · split at h
          · cases h
          · exact Nat.lt_trans (ih h) (Nat.lt_succ_self _)

/-- The bias for numbers of some size, behind the places up to `start`. -/
def biasFrom (start size : Nat) : Nat :=
  if 455 < size then biasFrom (start + 36) (size / 35) else start + 36 * size / (size + 38)
termination_by size
decreasing_by exact Nat.div_lt_self (by omega) (by omega)

/-- The bias behind a jump, with so many characters in the text. The first jump is expected to be
longer than the others. -/
def nextBias (jump count : Nat) (isFirst : Bool) : Nat :=
  let size := if isFirst then jump / 700 else jump / 2
  biasFrom 0 (size + size / count)

/-- A text with the characters put in that some numbers stand for; `point` is the code point that is
put in next, and `start` the place to go on from. -/
def fill? (bias point start : Nat) (text : List Char) (s : List Char) : Option (List Char) :=
  match s with
  | [] => some text
  | c :: rest =>
    match _h : readJump? bias 36 1 start (c :: rest) with
    | none => none
    | some (stop, behind) =>
      let count := text.length + 1
      let point := point + stop / count
      let place := stop % count
      if point.isValidChar then
        fill? (nextBias (stop - start) count (start = 0)) point (place + 1)
          (text.take place ++ Char.ofNat point :: text.drop place) behind
      else none
termination_by s.length
decreasing_by exact length_readJump? _h

/-- The text that Punycode stands for. A hyphen at its front ends no text of ASCII. -/
def decode? (s : List Char) : Option (List Char) :=
  let behind := (s.reverse.takeWhile (· ≠ '-')).reverse
  match s.take (s.length - behind.length) with
  | [] => fill? 72 128 0 [] s
  | [_] => none
  | basic => fill? 72 128 0 basic.dropLast behind

/-- The digit of a value. -/
def digit (d : Nat) : Char := Char.ofNat (if d < 26 then 97 + d else 22 + d)

theorem threshold_pos (place bias : Nat) : 0 < threshold place bias := by
  rw [threshold]
  split
  · decide
  · split <;> omega

/-- The digits of a number, from some place on. -/
def writeJump (bias place jump : Nat) : List Char :=
  let least := threshold place bias
  if jump < least then [digit jump]
  else
    digit (least + (jump - least) % (36 - least)) ::
      writeJump bias (place + 36) ((jump - least) / (36 - least))
termination_by jump
decreasing_by
  have hpos := threshold_pos place bias
  exact Nat.lt_of_le_of_lt (Nat.div_le_self ..) (by omega)

/-- How far a text is written. -/
structure Writer where
  /-- The bias for the next number. -/
  bias : Nat
  /-- The code point from which on characters are missing. -/
  point : Nat
  /-- How many places there are up to the next character that is put in. -/
  jump : Nat
  /-- How many characters have been written. -/
  count : Nat
  /-- No number has been written. -/
  isFirst : Bool
  /-- What has been written. -/
  code : List Char

/-- The writer behind one more character of the text, where those of a code point are put in. -/
def Writer.pass (point : Nat) (w : Writer) (c : Char) : Writer :=
  if c.toNat < point then { w with jump := w.jump + 1 }
  else if c.toNat = point then
    { w with
      bias := nextBias w.jump (w.count + 1) w.isFirst
      jump := 0
      count := w.count + 1
      isFirst := false
      code := w.code ++ writeJump w.bias 36 w.jump }
  else w

/-- The writer behind the characters of a code point in a text. -/
def Writer.put (text : List Char) (w : Writer) (point : Nat) : Writer :=
  let start := { w with jump := w.jump + (point - w.point) * (w.count + 1) }
  let stop := text.foldl (Writer.pass point) start
  { stop with point := point + 1, jump := stop.jump + 1 }

/-- The code points beyond ASCII of a text, in their order. -/
def points (text : List Char) : List Nat :=
  ((text.map Char.toNat).filter (128 ≤ ·)).mergeSort.eraseDups

/-- What Punycode writes for a text. -/
def encode (text : List Char) : List Char :=
  let basic := text.filter (·.toNat < 128)
  let front := if basic.isEmpty then [] else basic ++ ['-']
  ((points text).foldl (Writer.put text) ⟨72, 128, 0, basic.length, true, front⟩).code

end VaultTokens.Url.Punycode
