/-!
# JSON documents

A document as a tree that keeps its literals the way they are written. Scanning a document and
reading a literal are two steps, since a reader skips the parts it has no use for: a number that is
too large or a string with half a surrogate pair does no harm where it is skipped.

The symbols of a document are characters, and gaps where its bytes are no UTF-8.
-/

namespace VaultTokens.Json

/-- A character of a document, or a gap where its bytes are no text. -/
abbrev Symbol := Option Char

/-- A document, with its literals as written. -/
inductive Node where
  /-- Nothing. -/
  | null
  /-- A truth value. -/
  | bool (value : Bool)
  /-- A number as written. -/
  | number (literal : List Char)
  /-- A string as written between its quotation marks. -/
  | string (literal : List Symbol)
  /-- Values in order. -/
  | array (items : List Node)
  /-- Members in order, their names as written between quotation marks. -/
  | object (members : List (List Symbol × Node))

/-- The value of a hexadecimal digit of either case. -/
def hexValue? (c : Char) : Option Nat :=
  let n := c.toNat
  if 48 ≤ n ∧ n ≤ 57 then some (n - 48)
  else if 65 ≤ n ∧ n ≤ 70 then some (n - 55)
  else if 97 ≤ n ∧ n ≤ 102 then some (n - 87)
  else none

/-- The number of four hexadecimal digits. -/
def hex4? (a b c d : Char) : Option Nat := do
  let a ← hexValue? a
  let b ← hexValue? b
  let c ← hexValue? c
  let d ← hexValue? d
  return ((a * 16 + b) * 16 + c) * 16 + d

/-- The character behind a backslash, if a single one stands there for another. -/
def unescape? (c : Char) : Option Char :=
  if c = '\"' then some '\"'
  else if c = '\\' then some '\\'
  else if c = '/' then some '/'
  else if c = 'b' then some '\x08'
  else if c = 'f' then some '\x0c'
  else if c = 'n' then some '\n'
  else if c = 'r' then some '\r'
  else if c = 't' then some '\t'
  else none

/-- The text of a string literal. There is none if the literal holds a gap, or half a surrogate
pair. -/
def text? : List Symbol → Option (List Char)
  | [] => some []
  | none :: _ => none
  | some '\\' :: some 'u' :: some a :: some b :: some c :: some d :: rest => do
    let high ← hex4? a b c d
    if high < 0xd800 ∨ 0xdfff < high then
      let more ← text? rest
      return Char.ofNat high :: more
    else if 0xdbff < high then none
    else
      match rest with
      | some '\\' :: some 'u' :: some a :: some b :: some c :: some d :: rest =>
        let low ← hex4? a b c d
        if 0xdc00 ≤ low ∧ low ≤ 0xdfff then
          let more ← text? rest
          return Char.ofNat (0x10000 + (high - 0xd800) * 0x400 + (low - 0xdc00)) :: more
        else none
      | _ => none
  | some '\\' :: some e :: rest => do
    let c ← unescape? e
    let more ← text? rest
    return c :: more
  | some c :: rest => (text? rest).map (c :: ·)

/-- The natural number of a literal of digits alone. -/
def digits? (literal : List Char) : Option Nat :=
  if literal.all Char.isDigit && !literal.isEmpty then
    some (literal.foldl (fun acc c => acc * 10 + (c.toNat - 48)) 0)
  else none

/-- The number of the leading digits behind `acc` that fit a word of 64 bits, and the other
digits. -/
def leading (acc : Nat) : List Char → Nat × List Char
  | [] => (acc, [])
  | c :: rest =>
    let n := acc * 10 + (c.toNat - 48)
    if n < UInt64.size then leading n rest else (acc, c :: rest)

/-- The bits of a floating-point number that count. -/
def precision : Nat := 53

/-- The natural number nearest to `n` that has no more bits than count, of two the even one. -/
def nearest (n : Nat) : Nat :=
  let unit := Nat.pow 2 (n.log2 + 1 - precision)
  let down := n / unit
  let up := unit < 2 * (n % unit) || (unit = 2 * (n % unit) && down % 2 = 1)
  (if up then down + 1 else down) * unit

/-- The least number that is nearer to the power of two beyond all floating-point numbers than to
the greatest of them. -/
def beyond : Nat := Nat.pow 2 1024 - Nat.pow 2 970

/-- The greatest power of ten that is a floating-point number. -/
def greatestPower : Nat := 308

/-- Whether a number is small enough for a floating-point number of 64 bits. The literal is a sign,
digits, a fraction and an exponent, each but the digits optional. Its leading digits and the power
of ten behind them are rounded by themselves and then multiplied; digits that do not fit a word only
count as places. -/
def fits (literal : List Char) : Bool :=
  let unsigned := literal.dropWhile (· = '-')
  let mantissa := unsigned.takeWhile fun c => c ≠ 'e' && c ≠ 'E'
  let exponent := (unsigned.dropWhile fun c => c ≠ 'e' && c ≠ 'E').drop 1
  let whole := mantissa.takeWhile (· ≠ '.')
  let fraction := (mantissa.dropWhile (· ≠ '.')).drop 1
  let power : Nat := (exponent.filter Char.isDigit).foldl (fun acc c => acc * 10 + (c.toNat - 48)) 0
  let signed : Int := if exponent.head? = some '-' then -(power : Int) else (power : Int)
  let (head, unread) := leading 0 whole
  let (significand, rest) := leading head fraction
  let scale : Int := signed + (unread.length : Int) + (rest.length : Int) - (fraction.length : Int)
  if significand = 0 || scale < 0 then true
  else if (greatestPower : Int) < scale then false
  else nearest significand * nearest (Nat.pow 10 scale.toNat) < beyond

/-- Whether a value can be read in full: every string is text, every number fits, and no more than
`depth` arrays and objects lie within each other. -/
def Node.isReadable : Nat → Node → Bool
  | _, .null => true
  | _, .bool _ => true
  | _, .number literal => fits literal
  | _, .string literal => (text? literal).isSome
  | 0, .array _ => false
  | 0, .object _ => false
  | depth + 1, .array items => items.all (Node.isReadable depth ·)
  | depth + 1, .object members =>
    members.all fun m => (text? m.1).isSome && Node.isReadable depth m.2

end VaultTokens.Json
