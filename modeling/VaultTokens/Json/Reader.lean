import VaultTokens.Json.Node

/-!
# Scanning documents

From symbols to a tree. Blanks are allowed around every value and every mark; a comma before a
closing bracket is not, nor is anything behind the document. The scan is bounded by the length of
the document: every value takes a symbol, and every step from a list to its next value does.

Main statement: `parse?_gap` (a gap at the place of a value is refused).
-/

namespace VaultTokens.Json

/-- Whether a symbol may stand between values. -/
def isSpace (s : Symbol) : Bool :=
  s = some ' ' || s = some '\n' || s = some '\t' || s = some '\r'

/-- What is left behind the blanks. -/
def skip (s : List Symbol) : List Symbol := s.dropWhile isSpace

/-- What is left behind a word, if the word stands there. -/
def word? : List Char → List Symbol → Option (List Symbol)
  | [], rest => some rest
  | _ :: _, [] => none
  | c :: word, s :: rest => if s = some c then word? word rest else none

/-- A string literal up to its closing quotation mark, and what is left. An escape must be one that
there is; a control character must be escaped. -/
def scanString : List Symbol → Option (List Symbol × List Symbol)
  | [] => none
  | some '\"' :: rest => some ([], rest)
  | some '\\' :: some 'u' :: some a :: some b :: some c :: some d :: rest => do
    let _ ← hex4? a b c d
    let (literal, rest) ← scanString rest
    return (some '\\' :: some 'u' :: some a :: some b :: some c :: some d :: literal, rest)
  | some '\\' :: some e :: rest => do
    let _ ← unescape? e
    let (literal, rest) ← scanString rest
    return (some '\\' :: some e :: literal, rest)
  | some '\\' :: _ => none
  | none :: rest => (scanString rest).map fun r => (none :: r.1, r.2)
  | some c :: rest =>
    if c.toNat < 0x20 then none else (scanString rest).map fun r => (some c :: r.1, r.2)

/-- The digits at the head, and what is left. -/
def scanDigits : List Symbol → List Char × List Symbol
  | some c :: rest =>
    if c.isDigit then ((c :: (scanDigits rest).1), (scanDigits rest).2) else ([], some c :: rest)
  | rest => ([], rest)

/-- A fraction, if there is a point, and what is left. -/
def scanFraction (s : List Symbol) : Option (List Char × List Symbol) :=
  match s with
  | some '.' :: rest =>
    let (digits, rest) := scanDigits rest
    if digits.isEmpty then none else some ('.' :: digits, rest)
  | _ => some ([], s)

/-- The sign of an exponent, if there is one, and what is left. -/
def scanSign (s : List Symbol) : List Char × List Symbol :=
  match s with
  | some '+' :: rest => (['+'], rest)
  | some '-' :: rest => (['-'], rest)
  | _ => ([], s)

/-- An exponent, if there is one, and what is left. -/
def scanExponent (s : List Symbol) : Option (List Char × List Symbol) :=
  match s with
  | some c :: rest =>
    if c = 'e' ∨ c = 'E' then
      let (sign, rest) := scanSign rest
      let (digits, rest) := scanDigits rest
      if digits.isEmpty then none else some (c :: sign ++ digits, rest)
    else some ([], s)
  | _ => some ([], s)

/-- A number without its sign, and what is left. A leading zero stands alone. -/
def scanUnsigned (s : List Symbol) : Option (List Char × List Symbol) := do
  let (whole, rest) := scanDigits s
  if whole.isEmpty || (whole.head? = some '0' && 1 < whole.length) then none
  else
    let (fraction, rest) ← scanFraction rest
    let (exponent, rest) ← scanExponent rest
    return (whole ++ fraction ++ exponent, rest)

/-- A number, and what is left. -/
def scanNumber (s : List Symbol) : Option (List Char × List Symbol) :=
  match s with
  | some '-' :: rest => (scanUnsigned rest).map fun r => ('-' :: r.1, r.2)
  | _ => scanUnsigned s

mutual

/-- A value, and what is left. -/
def scanValue : Nat → List Symbol → Option (Node × List Symbol)
  | 0, _ => none
  | fuel + 1, s =>
    match skip s with
    | some '\"' :: rest => (scanString rest).map fun r => (.string r.1, r.2)
    | some '[' :: rest =>
      match skip rest with
      | some ']' :: rest => some (.array [], rest)
      | rest => (scanItems fuel rest).map fun r => (.array r.1, r.2)
    | some '\x7b' :: rest =>
      match skip rest with
      | some '\x7d' :: rest => some (.object [], rest)
      | rest => (scanMembers fuel rest).map fun r => (.object r.1, r.2)
    | some 'n' :: rest => (word? "ull".toList rest).map fun rest => (.null, rest)
    | some 't' :: rest => (word? "rue".toList rest).map fun rest => (.bool true, rest)
    | some 'f' :: rest => (word? "alse".toList rest).map fun rest => (.bool false, rest)
    | rest => (scanNumber rest).map fun r => (.number r.1, r.2)

/-- The values of an array that is not empty, up to its closing bracket, and what is left. -/
def scanItems : Nat → List Symbol → Option (List Node × List Symbol)
  | 0, _ => none
  | fuel + 1, s =>
    match scanValue fuel s with
    | none => none
    | some (item, rest) =>
      match skip rest with
      | some ',' :: rest => (scanItems fuel rest).map fun r => (item :: r.1, r.2)
      | some ']' :: rest => some ([item], rest)
      | _ => none

/-- The members of an object that is not empty, up to its closing brace, and what is left. -/
def scanMembers : Nat → List Symbol → Option (List (List Symbol × Node) × List Symbol)
  | 0, _ => none
  | fuel + 1, s =>
    match skip s with
    | some '\"' :: rest =>
      match scanString rest with
      | none => none
      | some (name, rest) =>
        match skip rest with
        | some ':' :: rest =>
          match scanValue fuel rest with
          | none => none
          | some (value, rest) =>
            match skip rest with
            | some ',' :: rest => (scanMembers fuel rest).map fun r => ((name, value) :: r.1, r.2)
            | some '\x7d' :: rest => some ([(name, value)], rest)
            | _ => none
        | _ => none
    | _ => none

end

/-- The document that the symbols spell. -/
def parse? (s : List Symbol) : Option Node :=
  match scanValue (2 * s.length + 2) s with
  | some (node, rest) => if (skip rest).isEmpty then some node else none
  | none => none

/-- A gap at the place of a value is refused. -/
theorem parse?_gap (rest : List Symbol) : parse? (none :: rest) = none := by
  simp [parse?, scanValue, skip, isSpace, scanNumber, scanUnsigned, scanDigits]

end VaultTokens.Json
