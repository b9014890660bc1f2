import VaultTokens.Json.Reader

/-!
# Records in documents

A record has named parts. In a document it is an object, whose members may come in any order and
among others that are skipped, or an array of the parts in their own order. A named part may be
missing, which is for the reader of the record to judge, but it may not come twice.

Main statement: `length_record?` (one place for each name).
-/

namespace VaultTokens.Json

/-- Members with the texts of their names, if every name is text. -/
def named? (members : List (List Symbol × Node)) : Option (List (List Char × Node)) :=
  members.mapM fun m => (text? m.1).map fun name => (name, m.2)

/-- The only member with the name: absent if there is none, refused if there are several. -/
def only? (name : List Char) (members : List (List Char × Node)) : Option (Option Node) :=
  match members.filter (·.1 = name) with
  | [] => some none
  | [m] => some (some m.2)
  | _ => none

/-- The parts of a record, each under its name if it is there. -/
def record? (names : List String) : Node → Option (List (Option Node))
  | .object members =>
    (named? members).bind fun members => names.mapM fun name => only? name.toList members
  | .array items =>
    if items.length ≤ names.length then
      some (items.map some ++ List.replicate (names.length - items.length) none)
    else none
  | _ => none

/-- The text of a string. -/
def Node.text? : Node → Option String
  | .string literal => (Json.text? literal).map String.ofList
  | _ => none

/-- The truth value of a value that is one. -/
def Node.bool? : Node → Option Bool
  | .bool value => some value
  | _ => none

/-- The natural number of at most 64 bits that a value is. -/
def Node.word? : Node → Option UInt64
  | .number literal =>
    (digits? literal).bind fun n => if n < UInt64.size then some (UInt64.ofNat n) else none
  | _ => none

private theorem length_of_mapM {α β : Type} {f : α → Option β} {xs : List α} {ys : List β}
    (h : xs.mapM f = some ys) : ys.length = xs.length := by
  induction xs generalizing ys with
  | nil =>
    simp at h
    simp [← h]
  | cons x xs ih =>
    simp only [List.mapM_cons, Option.bind_eq_bind, Option.bind_eq_some_iff, Option.pure_def,
      Option.some.injEq] at h
    obtain ⟨y, _, zs, hzs, rfl⟩ := h
    simp [ih hzs]

/-- A record that is read has one place for each name. -/
theorem length_record? {names : List String} {node : Node} {parts : List (Option Node)}
    (h : record? names node = some parts) : parts.length = names.length := by
  cases node with
  | object members =>
    simp only [record?, Option.bind_eq_some_iff] at h
    obtain ⟨_, _, h⟩ := h
    exact length_of_mapM h
  | array items =>
    simp only [record?] at h
    split at h
    · simp only [Option.some.injEq] at h
      rw [← h]
      simp
      omega
    · cases h
  | null => cases h
  | bool => cases h
  | number => cases h
  | string => cases h

end VaultTokens.Json
