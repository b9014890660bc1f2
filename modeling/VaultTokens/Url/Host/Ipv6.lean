/-!
# IPv6 addresses in URLs

Eight groups of sixteen bits in hexadecimal digits between colons. One run of zero groups may be
left out; the last two groups may be written as an IPv4 address. An address is printed with its
longest run of at least two zero groups left out, the first one if several are equally long.

The reader goes from group to group and keeps what it has read and where the left-out run was.

Main statement: `length_groups?` (an address that is read has eight groups).
-/

namespace VaultTokens.Url.Ipv6

/-- The value of a hexadecimal digit of either case. -/
def hexValue? (c : Char) : Option Nat :=
  let n := c.toNat
  if 48 ≤ n ∧ n ≤ 57 then some (n - 48)
  else if 65 ≤ n ∧ n ≤ 70 then some (n - 55)
  else if 97 ≤ n ∧ n ≤ 102 then some (n - 87)
  else none

/-- Groups read so far. -/
structure Progress where
  /-- The groups before the left-out run, or all of them. -/
  front : List Nat
  /-- The groups behind the left-out run, if there was one. -/
  back : Option (List Nat)

/-- How many groups are taken; a left-out run stands for at least one. -/
def Progress.taken (p : Progress) : Nat :=
  p.front.length + (match p.back with | some b => b.length + 1 | none => 0)

/-- One more group. -/
def Progress.push (p : Progress) (group : Nat) : Progress :=
  match p.back with
  | some b => { p with back := some (b ++ [group]) }
  | none => { p with front := p.front ++ [group] }

/-- The eight groups, the left-out ones filled with zeros. -/
def Progress.groups? (p : Progress) : Option (List Nat) :=
  match p.back with
  | some b =>
    if p.front.length + b.length ≤ 7 then
      some (p.front ++ List.replicate (8 - p.front.length - b.length) 0 ++ b)
    else none
  | none => if p.front.length = 8 then some p.front else none

/-- The leading hexadecimal digits, at most `most` of them, behind the value `acc`; how many there
were, their value, and what is left. -/
def group (most count acc : Nat) : List Char → Nat × Nat × List Char
  | [] => (count, acc, [])
  | c :: rest =>
    match most with
    | 0 => (count, acc, c :: rest)
    | most + 1 =>
      match hexValue? c with
      | none => (count, acc, c :: rest)
      | some d => group most (count + 1) (acc * 16 + d) rest

/-- A byte in decimal digits without a leading zero. -/
def decimalByte? (digits : List Char) : Option Nat :=
  match digits with
  | [] => none
  | '0' :: _ :: _ => none
  | _ =>
    if digits.all Char.isDigit then
      let n := digits.foldl (fun acc c => acc * 10 + (c.toNat - 48)) 0
      if n ≤ 255 ∧ digits.length ≤ 3 then some n else none
    else none

/-- The two groups that an IPv4 address stands for. -/
def dotted? (text : List Char) : Option (Nat × Nat) :=
  match (text.splitOn '.').map decimalByte? with
  | [some a, some b, some c, some d] => some (a * 256 + b, c * 256 + d)
  | _ => none

theorem length_groups? {p : Progress} {gs : List Nat} (h : p.groups? = some gs) :
    gs.length = 8 := by
  rw [Progress.groups?] at h
  split at h <;> split at h <;> simp at h
  · rw [← h]
    simp
    omega
  · rw [← h]
    assumption

theorem length_group_le (most count acc : Nat) (text : List Char) :
    (group most count acc text).2.2.length ≤ text.length := by
  fun_induction group most count acc text <;> simp_all <;> omega

/-- Reads groups to the end of the text. -/
def groups (p : Progress) : List Char → Option Progress
  | [] => some p
  | c :: rest =>
    if 8 ≤ p.taken then none
    else if c = ':' then
      match p.back with
      | some _ => none
      | none => groups { p with back := some [] } rest
    else
      match _h : group 4 0 0 (c :: rest) with
      | (0, _, _) => none
      | (_ + 1, value, []) => some (p.push value)
      | (_ + 1, value, d :: behind) =>
        if d = ':' then if behind.isEmpty then none else groups (p.push value) behind
        else if d = '.' ∧ p.taken ≤ 6 then
          (dotted? (c :: rest)).map fun pair => (p.push pair.1).push pair.2
        else none
termination_by text => text.length
decreasing_by
  all_goals simp_wf
  have := length_group_le 4 0 0 (c :: rest)
  rw [_h] at this
  simp at this
  omega

/-- The eight groups that the text between brackets denotes. -/
def parse? (text : List Char) : Option (List Nat) :=
  match text with
  | ':' :: ':' :: rest => (groups ⟨[], some []⟩ rest).bind Progress.groups?
  | ':' :: _ => none
  | [] => none
  | [_] => none
  | _ => (groups ⟨[], none⟩ text).bind Progress.groups?

/-- The length of the run of zeros at the head. -/
def zeroRun (gs : List Nat) : Nat := (gs.takeWhile (· = 0)).length

/-- Where the first longest run of zeros begins, and its length. -/
def longestRun : List Nat → Nat × Nat
  | [] => (0, 0)
  | g :: gs =>
    let (start, length) := longestRun gs
    let here := zeroRun (g :: gs)
    if length ≤ here then (0, here) else (start + 1, length)

/-- Groups between colons. -/
def colons (gs : List Nat) : String :=
  ":".intercalate (gs.map fun g => String.ofList (Nat.toDigits 16 g))

/-- The shortest text of an address. -/
def render (gs : List Nat) : String :=
  let (start, length) := longestRun gs
  if 2 ≤ length then colons (gs.take start) ++ "::" ++ colons (gs.drop (start + length))
  else colons gs

end VaultTokens.Url.Ipv6
