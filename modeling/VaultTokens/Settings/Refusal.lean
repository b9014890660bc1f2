import VaultTokens.Failure
import VaultTokens.Url.Parser

/-!
# Why settings are refused

Every reason for which settings are refused, and the words in which each is reported. A refusal is
a failure of the configuration.

Main statement: `readUrl_eq_ok_iff` (the only way to a server's URL).
-/

namespace VaultTokens

/-- A reason to refuse settings. -/
inductive Refusal where
  /-- The URL is no URL of a server. -/
  | urlInvalid
  /-- No strategy is named. -/
  | methodEmpty
  /-- The fallback strategy is named but has no token to serve. -/
  | fallbackTokenMissing
  /-- The requested time to live is below the least one. -/
  | ttlTooShort
  /-- The token would be renewed before it was issued. -/
  | bufferNotBelowTtl
  /-- No role is named. -/
  | roleBlank
  /-- There is no token to renew. -/
  | tokenBlank
  /-- A property that must be there is not. -/
  | missing (key : String)
  /-- The value of a property is of the wrong form. -/
  | unreadable (value key : String)
  deriving DecidableEq, Repr

/-- The least time to live that may be requested, in seconds. -/
def leastTtl : UInt64 := 5

namespace Refusal

/-- The reason in words. -/
def detail : Refusal → String
  | .urlInvalid => "Vault url must be valid"
  | .methodEmpty => "Vault auth method must not be empty"
  | .fallbackTokenMissing =>
    "Vault fallback token must be set when no other auth method is configured"
  | .ttlTooShort => "Vault token ttl minimum value is " ++ toString leastTtl.toNat
  | .bufferNotBelowTtl => "Vault token renew buffer value must be less than ttl value"
  | .roleBlank => "Kubernetes auth role must not be empty"
  | .tokenBlank => "Vault token must not be empty"
  | .missing key => "Missing required setting " ++ key
  | .unreadable value key => "Invalid value '" ++ value ++ "' for setting " ++ key

/-- The refusal as a failure. -/
def failure (r : Refusal) : Failure := .configuration r.detail

end Refusal

/-- The URL of a server, or why there is none. -/
def readUrl (text : String) : Except Refusal Url :=
  match Url.parse? text with
  | some url => .ok url
  | none => .error .urlInvalid

theorem readUrl_eq_ok_iff {text : String} {url : Url} :
    readUrl text = .ok url ↔ Url.parse? text = some url := by
  simp only [readUrl]
  cases Url.parse? text <;> simp

end VaultTokens
