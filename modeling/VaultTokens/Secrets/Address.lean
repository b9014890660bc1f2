import VaultTokens.Settings.VaultSettings

/-!
# Addresses of secrets

Every secret has two addresses: one for its content, which is read and written there, and one for
all that is known about it, which is removed there. An address lies below the server's URL and
follows the names of the store, of the kind of entry, of the folder and of the key. A slash in any
of them begins another name; names that are empty do not count.
-/

namespace VaultTokens.Secrets

/-- What an address is for. -/
inductive Entry where
  /-- The content of a secret. -/
  | content
  /-- All that is known about a secret. -/
  | metadata
  deriving DecidableEq, Repr

/-- The name of a kind of entry in an address. -/
def Entry.name : Entry → String
  | .content => "data"
  | .metadata => "metadata"

/-- The names between the slashes of a text. -/
def namesIn (text : String) : List (List Char) := Url.Path.names text.toList

/-- The names in front of a key: the store, the kind of entry and the folder. -/
def folderNames (s : VaultSettings) (entry : Entry) : List (List Char) :=
  namesIn s.secretPath ++ entry.name.toList :: (s.folder.elim [] namesIn)

/-- The address of an entry of a secret. -/
def address (s : VaultSettings) (entry : Entry) (key : String) : Url :=
  s.url.extendPath (folderNames s entry ++ namesIn key)

/-- What is asked about standby servers when health is checked. -/
def healthQuery (standbyOk : Bool) : List Char :=
  let answer := toString standbyOk
  ("standbyok=" ++ answer ++ "&perfstandbyok=" ++ answer).toList

/-- The address at which health is checked. -/
def healthAddress (s : VaultSettings) : Url :=
  (s.url.extendPath (namesIn s.healthPath)).addQuery (healthQuery s.standbyOk)

end VaultTokens.Secrets
