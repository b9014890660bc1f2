import VaultTokens.Json.Record
import VaultTokens.Json.Writer

/-!
# Contents of secrets

The store keeps a secret as an object of its own; the content is the member `content` of it. It is
written in one envelope and read in another: what is sent wraps the object once, what comes back
wraps it twice.

An answer that cannot be read is told apart from one that can but has no content in it. All members
of the object are read, though only the content is used, and of several contents the last one
counts.

Main statement: `contentIn_singleton` (the content of an object that has nothing else).
-/

namespace VaultTokens.Secrets

/-- The name of the member with the content. -/
def contentName : String := "content"

/-- The name of an envelope's only part. -/
def envelopeName : String := "data"

/-- How many arrays and objects may lie within each other inside a secret. -/
def depthInside : Nat := 124

/-- The document that is sent for a content. -/
def envelope (content : String) : String :=
  String.ofList
    (Json.writeObject
      [(envelopeName, Json.writeObject [(contentName, Json.writeText content)])])

/-- What is inside an envelope. -/
def opened? (node : Json.Node) : Option Json.Node :=
  match Json.record? [envelopeName] node with
  | some [some inside] => some inside
  | _ => none

/-- The members of a secret, each with its name, if it is an object that can be read in full. -/
def members? : Json.Node → Option (List (List Char × Json.Node))
  | .object members =>
    if members.all fun m => m.2.isReadable depthInside then Json.named? members else none
  | _ => none

/-- The members of the secret in the store's answer. -/
def answered? (node : Json.Node) : Option (List (List Char × Json.Node)) :=
  ((opened? node).bind opened?).bind members?

/-- The last content among some members, if it is text. -/
def contentIn (members : List (List Char × Json.Node)) : Option String :=
  ((members.filter fun m => m.1 = contentName.toList).getLast?).bind fun m => m.2.text?

theorem contentIn_singleton (node : Json.Node) :
    contentIn [(contentName.toList, node)] = node.text? := by
  simp [contentIn]

end VaultTokens.Secrets
