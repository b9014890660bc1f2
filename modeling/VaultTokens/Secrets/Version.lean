import VaultTokens.Json.Record

/-!
# Versions of secrets

What the store says about one version of a secret: when it was created, when it was deleted, whether
its content is destroyed, and its number. The parts come in a record, among others that are skipped.
When it was created and its number are always there; without the other parts the version was never
deleted and its content is not destroyed.

Main statement: `ofParts?_eq_some_iff` (which parts make a version).
-/

namespace VaultTokens.Secrets

/-- One version of a secret. -/
structure Version where
  /-- When it was created, as the store words it. -/
  createdTime : String
  /-- When it was deleted, as the store words it; empty if it never was. -/
  deletionTime : String
  /-- Whether its content is destroyed. -/
  destroyed : Bool
  /-- Its number. -/
  number : UInt64
  deriving DecidableEq, Repr

namespace Version

/-- The names of the parts, in the order that an array gives them in. -/
def partNames : List String := ["created_time", "deletion_time", "destroyed", "version"]

/-- The version with these parts, if each is of its form and none is missing that must be there. -/
def ofParts? : List (Option Json.Node) → Option Version
  | [some created, deleted, destroyed, some number] => do
    let createdTime ← created.text?
    let deletionTime ← deleted.elim (some "") Json.Node.text?
    let destroyed ← destroyed.elim (some false) Json.Node.bool?
    let number ← number.word?
    return { createdTime, deletionTime, destroyed, number }
  | _ => none

/-- The version that a document describes. -/
def ofNode? (node : Json.Node) : Option Version :=
  (Json.record? partNames node).bind ofParts?

/-- The version that a text describes. -/
def parse? (text : String) : Option Version :=
  (Json.parse? (text.toList.map some)).bind ofNode?

/-- The version in the store's answer to a secret that it took in. -/
def ofAnswer? (node : Json.Node) : Option Version :=
  match Json.record? ["data"] node with
  | some [some data] => ofNode? data
  | _ => none

/-- A version is made of when it was created and its number, and of the other two parts if they are
there. -/
theorem ofParts?_eq_some_iff {created deleted destroyed number : Option Json.Node} {v : Version} :
    ofParts? [created, deleted, destroyed, number] = some v ↔
      created.bind Json.Node.text? = some v.createdTime ∧
        deleted.elim (some "") Json.Node.text? = some v.deletionTime ∧
        destroyed.elim (some false) Json.Node.bool? = some v.destroyed ∧
        number.bind Json.Node.word? = some v.number := by
  obtain ⟨createdTime, deletionTime, isDestroyed, n⟩ := v
  cases created with
  | none => simp [ofParts?]
  | some created =>
    cases number with
    | none => simp [ofParts?]
    | some number =>
      simp only [ofParts?, Option.bind_some]
      cases created.text? <;> cases deleted.elim (some "") Json.Node.text? <;>
        cases destroyed.elim (some false) Json.Node.bool? <;> cases number.word? <;> simp

end Version

end VaultTokens.Secrets
