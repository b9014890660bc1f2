/-!
# IPv4 addresses in URLs

A host whose last label is a number is an address: up to four numbers between dots, each decimal,
octal behind a zero, or hexadecimal behind `0x`. The last number fills the bytes that are left, so
`127.1` is the same address as `127.0.0.1`.

Main statement: `eq_of_combine` gives the value of an address from its numbers.
-/

namespace VaultTokens.Url.Ipv4

/-- The value of a digit below `base`, either case. -/
def digit? (base : Nat) (c : Char) : Option Nat :=
  let n := c.toNat
  let value :=
    if 48 ≤ n ∧ n ≤ 57 then n - 48
    else if 65 ≤ n ∧ n ≤ 70 then n - 55
    else if 97 ≤ n ∧ n ≤ 102 then n - 87
    else base
  if value < base then some value else none

/-- The number with these digits behind `acc`. -/
def digits? (base acc : Nat) : List Char → Option Nat
  | [] => some acc
  | c :: rest => (digit? base c).bind fun d => digits? base (acc * base + d) rest

/-- The number that a label denotes, if it denotes one. -/
def number? (label : List Char) : Option Nat :=
  match label with
  | [] => none
  | '0' :: 'x' :: rest => digits? 16 0 rest
  | '0' :: 'X' :: rest => digits? 16 0 rest
  | '0' :: c :: rest => digits? 8 0 (c :: rest)
  | c :: rest => digits? 10 0 (c :: rest)

/-- The labels of a host, without the empty one behind a closing dot. -/
def labels (host : List Char) : List (List Char) :=
  let parts := host.splitOn '.'
  if parts.getLast? = some [] then parts.dropLast else parts

/-- Whether the last label of a host makes it an address. -/
def endsInNumber (host : List Char) : Bool :=
  match (labels host).getLast? with
  | none => false
  | some last => (!last.isEmpty && last.all Char.isDigit) || (number? last).isSome

/-- How many values the last number may take behind so many leading ones. -/
def roomBehind (leading : Nat) : Nat :=
  match leading with
  | 0 => 4294967296
  | 1 => 16777216
  | 2 => 65536
  | _ => 256

/-- The address in the leading numbers, one byte each, and the last one, which fills the rest. -/
def combine (leading : List Nat) (last : Nat) : Option Nat :=
  if leading.length ≤ 3 ∧ leading.all (· ≤ 255) ∧ last < roomBehind leading.length then
    some (leading.foldl (fun acc n => acc * 256 + n) 0 * roomBehind leading.length + last)
  else none

/-- The address that a host denotes, if it denotes one. -/
def parse? (host : List Char) : Option Nat := do
  let numbers ← (labels host).mapM number?
  let last ← numbers.getLast?
  combine numbers.dropLast last

/-- The four bytes of an address between dots. -/
def render (address : Nat) : String :=
  ".".intercalate
    ([address / 16777216 % 256, address / 65536 % 256, address / 256 % 256, address % 256].map
      toString)

/-- The leading numbers are the upper bytes, and the last number is what is left. -/
theorem eq_of_combine {leading : List Nat} {last address : Nat}
    (h : combine leading last = some address) :
    address = leading.foldl (fun acc n => acc * 256 + n) 0 * roomBehind leading.length + last := by
  rw [combine] at h
  split at h <;> simp at h
  exact h.symm

end VaultTokens.Url.Ipv4
