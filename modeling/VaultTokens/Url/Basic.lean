import VaultTokens.Url.Credentials
import VaultTokens.Url.Host
import VaultTokens.Url.Path

/-!
# URLs of servers

A URL with the scheme `http` or `https`, in parts. Every part is kept as it is printed, so that
printing puts the parts together and nothing else. The port is absent if it is the usual one of
the scheme.

Main statement: `toString_eq` lists the parts in the order they are printed in.
-/

namespace VaultTokens

/-- The schemes that a server is reached by. -/
inductive Url.Scheme where
  /-- Plain text. -/
  | http
  /-- Encrypted. -/
  | https
  deriving DecidableEq, Repr

/-- A URL of a server. -/
structure Url where
  /-- How the server is reached. -/
  scheme : Url.Scheme
  /-- The user name and the password. -/
  credentials : Url.Credentials
  /-- The server. -/
  host : Url.Host
  /-- The port, unless it is the usual one. -/
  port : Option Nat
  /-- The segments of the path, encoded. -/
  path : List (List Char)
  /-- The query behind the question mark, encoded. -/
  query : Option (List Char)
  /-- The fragment behind the number sign, encoded. -/
  fragment : Option (List Char)
  deriving DecidableEq

namespace Url

/-- The name of a scheme. -/
def Scheme.name : Scheme → String
  | .http => "http"
  | .https => "https"

/-- The port that a scheme uses if none is given. -/
def Scheme.port : Scheme → Nat
  | .http => 80
  | .https => 443

/-- A part that is printed behind a mark, if it is there. -/
def behind (mark : Char) : Option (List Char) → List Char
  | none => []
  | some part => mark :: part

/-- A port behind the host, if it is there. -/
def renderPort : Option Nat → List Char
  | none => []
  | some port => ':' :: (ToString.toString port).toList

/-- The URL from the scheme to the port. -/
def origin (u : Url) : List Char :=
  u.scheme.name.toList ++ "://".toList ++ u.credentials.render ++ u.host.render.toList ++
    renderPort u.port

/-- The characters of a URL. -/
def toChars (u : Url) : List Char :=
  u.origin ++ Path.render u.path ++ behind '?' u.query ++ behind '#' u.fragment

/-- A URL as text. -/
def toString (u : Url) : String := String.ofList u.toChars

instance : ToString Url := ⟨Url.toString⟩

/-- The URL without user name and password, as it is sent and shown. -/
def withoutCredentials (u : Url) : Url := { u with credentials := u.credentials.withheld }

/-- The URL with names behind its path, which loses an empty last segment first. -/
def extendPath (u : Url) (names : List (List Char)) : Url :=
  { u with path := Path.extendAll (Path.popEmpty u.path) names }

/-- The URL with more behind its query. -/
def addQuery (u : Url) (more : List Char) : Url :=
  match u.query with
  | none => { u with query := some more }
  | some [] => { u with query := some more }
  | some q => { u with query := some (q ++ '&' :: more) }

/-- A path behind the text of a URL, which loses its closing slashes first. -/
def join (url path : String) : String :=
  String.ofList ((url.toList.reverse.dropWhile (· = '/')).reverse ++ '/' :: path.toList)

theorem toString_eq (u : Url) :
    u.toString = String.ofList
      (u.origin ++ Path.render u.path ++ behind '?' u.query ++ behind '#' u.fragment) := rfl

end Url

end VaultTokens
