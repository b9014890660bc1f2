import VaultTokens.Url.Foreign

/-!
# URLs of any scheme

A URL is that of a server or one of another scheme; which of them it is, the scheme decides.
Requests are made to servers only.

Main statement: `parse?_of_server` (the URL of a server is read as one).
-/

namespace VaultTokens.Url

/-- A URL of any scheme. -/
inductive Locator where
  /-- The URL of a server. -/
  | server (url : Url)
  /-- A URL of another scheme. -/
  | foreign (url : Foreign)
  deriving DecidableEq

namespace Locator

/-- A URL as text. -/
def toString : Locator → String
  | .server url => url.toString
  | .foreign url => url.toString

/-- The URL that a text denotes. -/
def parse? (text : String) : Option Locator :=
  match Url.parse? text with
  | some url => some (.server url)
  | none => (Foreign.parse? text).map .foreign

theorem parse?_of_server {text : String} {url : Url} (h : Url.parse? text = some url) :
    parse? text = some (.server url) := by
  simp [parse?, h]

end Locator

end VaultTokens.Url
