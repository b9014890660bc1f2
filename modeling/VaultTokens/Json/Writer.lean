import VaultTokens.Json.Node

/-!
# Writing documents

Objects of text, without blanks. In a string, quotation marks, backslashes and control characters
are escaped and nothing else is.

Main statement: `text?_literal` (a written string is read back).
-/

namespace VaultTokens.Json

/-- A digit of a hexadecimal number in lower case. -/
def hexDigit (n : Nat) : Char :=
  if n < 10 then Char.ofNat (48 + n) else Char.ofNat (87 + n)

/-- A character as it is written in a string. -/
def escapeChar (c : Char) : List Char :=
  if c = '\"' then ['\\', '\"']
  else if c = '\\' then ['\\', '\\']
  else if c = '\x08' then ['\\', 'b']
  else if c = '\t' then ['\\', 't']
  else if c = '\n' then ['\\', 'n']
  else if c = '\x0c' then ['\\', 'f']
  else if c = '\r' then ['\\', 'r']
  else if c.toNat < 0x20 then
    ['\\', 'u', '0', '0', hexDigit (c.toNat / 16), hexDigit (c.toNat % 16)]
  else [c]

/-- Text as it is written between quotation marks. -/
def literal (s : List Char) : List Char := s.flatMap escapeChar

/-- Text as a string. -/
def writeText (s : String) : List Char := '\"' :: literal s.toList ++ ['\"']

/-- An object of members that are already written. -/
def writeObject (members : List (String × List Char)) : List Char :=
  '\x7b' :: List.intercalate [','] (members.map fun m => writeText m.1 ++ ':' :: m.2) ++ ['\x7d']

/-- Reading the literal of one character and then the rest. -/
theorem text?_escapeChar_append (c : Char) (rest : List Symbol) :
    text? ((escapeChar c).map some ++ rest) = (text? rest).map (c :: ·) := by
  rw [escapeChar]
  split
  · simp_all [text?, unescape?, Option.map_eq_bind, Function.comp_def]
  split
  · simp_all [text?, unescape?, Option.map_eq_bind, Function.comp_def]
  split
  · simp_all [text?, unescape?, Option.map_eq_bind, Function.comp_def]
  split
  · simp_all [text?, unescape?, Option.map_eq_bind, Function.comp_def]
  split
  · simp_all [text?, unescape?, Option.map_eq_bind, Function.comp_def]
  split
  · simp_all [text?, unescape?, Option.map_eq_bind, Function.comp_def]
  split
  · simp_all [text?, unescape?, Option.map_eq_bind, Function.comp_def]
  split
  · rename_i h
    have key : ∀ n : Fin 32, hex4? '0' '0' (hexDigit (n.val / 16)) (hexDigit (n.val % 16))
        = some n.val := by decide
    have hc := key ⟨c.toNat, h⟩
    have hlt : c.toNat < 0xd800 := by omega
    simp only [List.map_cons, List.map_nil, List.cons_append, List.nil_append, text?, hc]
    simp [hlt, Option.map_eq_bind, Function.comp_def]
  · rename_i hb _ _ _ _ _ _
    rw [List.map_cons, List.map_nil, List.cons_append, List.nil_append, text?]
    all_goals simp_all

/-- A written string is read back. -/
theorem text?_literal (s : List Char) : text? ((literal s).map some) = some s := by
  induction s with
  | nil => rfl
  | cons c s ih =>
    rw [literal, List.flatMap_cons, List.map_append, text?_escapeChar_append]
    change Option.map _ (text? ((literal s).map some)) = _
    rw [ih]
    rfl

end VaultTokens.Json
