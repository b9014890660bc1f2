import VaultTokens.Settings.RenewalPolicy

/-!
# Settings of the secret client

Where the store is, which strategy's token is sent along, and how secrets are addressed. Settings
are valid once they exist: a strategy is named, the fallback strategy has a token if it is the one,
and a folder has a name.

Main statement: `make_eq_ok` (settings that are made have the values given).
-/

namespace VaultTokens

/-- The name under which the fallback token is always registered. -/
def fallbackMethod : String := "fallbackToken"

/-- Where health is checked unless another path is given. -/
def usualHealthPath : String := "/v1/sys/health"

/-- Where the store is unless another path is given. -/
def usualSecretPath : String := "/v1/secret"

/-- How long a request may take unless another time is given. -/
def usualTimeout : Duration := .ofSecs 10

/-- Whether a path names anything. -/
def namesFolder (path : String) : Bool := path.toList.any (· ≠ '/')

/-- Settings of the secret client. -/
structure VaultSettings where
  /-- The server. -/
  url : Url
  /-- The name of the strategy whose token is sent along. -/
  method : String
  /-- The token that the fallback strategy serves. -/
  fallbackToken : Option String
  /-- Whether health is checked on startup. -/
  healthCheck : Bool
  /-- Where health is checked. -/
  healthPath : String
  /-- Whether a standby server counts as healthy. -/
  standbyOk : Bool
  /-- Where the store is. -/
  secretPath : String
  /-- The folder below the store that holds every secret. -/
  folder : Option String
  /-- How long a request may take. -/
  timeout : Duration
  /-- A strategy is named. -/
  method_ne : method ≠ ""
  /-- The fallback strategy has a token, if it is the one. -/
  fallback_ne : method = fallbackMethod → fallbackToken.getD "" ≠ ""
  /-- A folder has a name. -/
  folder_named : ∀ f, folder = some f → namesFolder f = true
  deriving DecidableEq

namespace VaultSettings

/-- What may be given for the settings of the secret client. -/
structure Choices where
  /-- The server. -/
  url : String
  /-- The name of the strategy whose token is sent along. -/
  method : Option String
  /-- The token that the fallback strategy serves. -/
  fallbackToken : Option String
  /-- Whether health is checked on startup. -/
  healthCheck : Option Bool
  /-- Where health is checked. -/
  healthPath : Option String
  /-- Whether a standby server counts as healthy. -/
  standbyOk : Option Bool
  /-- Where the store is. -/
  secretPath : Option String
  /-- The folder below the store. -/
  folder : Option String
  /-- How long a request may take. -/
  timeout : Option Duration
  deriving DecidableEq

/-- The settings of some choices, unless the URL is none, no strategy is named or the fallback
strategy has no token. -/
def make (c : Choices) : Except Refusal VaultSettings :=
  match readUrl c.url with
  | .error r => .error r
  | .ok url =>
    let method := c.method.getD fallbackMethod
    if hmethod : method = "" then .error .methodEmpty
    else if hfallback : method = fallbackMethod ∧ c.fallbackToken.getD "" = "" then
      .error .fallbackTokenMissing
    else
      .ok
        { url := url
          method := method
          fallbackToken := c.fallbackToken
          healthCheck := c.healthCheck.getD true
          healthPath := c.healthPath.getD usualHealthPath
          standbyOk := c.standbyOk.getD false
          secretPath := c.secretPath.getD usualSecretPath
          folder := c.folder.filter namesFolder
          timeout := c.timeout.getD usualTimeout
          method_ne := hmethod
          fallback_ne := fun h ht => hfallback ⟨h, ht⟩
          folder_named := fun _ h => (Option.filter_eq_some_iff.1 h).2 }

/-- The settings on one line, without the token. -/
def describe (s : VaultSettings) : String :=
  Text.record "HashicorpVaultConfig"
    [("vault_url", Text.quote s.url.toString),
      ("auth_method", Text.quote s.method),
      ("fallback_token", Text.optional (s.fallbackToken.map fun _ => Text.hidden)),
      ("health_check_enabled", toString s.healthCheck),
      ("health_check_path", Text.quote s.healthPath),
      ("health_standby_ok", toString s.standbyOk),
      ("secret_path", Text.quote s.secretPath),
      ("folder_path", Text.optional (s.folder.map Text.quote)),
      ("request_timeout", s.timeout.text)]

/-- Settings that are made have the values given, or the usual ones. -/
theorem make_eq_ok {c : Choices} {s : VaultSettings} (h : make c = .ok s) :
    readUrl c.url = .ok s.url ∧ s.method = c.method.getD fallbackMethod ∧
      s.fallbackToken = c.fallbackToken ∧ s.folder = c.folder.filter namesFolder := by
  unfold make at h
  split at h
  · cases h
  · rename_i url hurl
    simp only at h
    split at h
    · cases h
    · split at h
      · cases h
      · simp only [Except.ok.injEq] at h
        subst h
        exact ⟨hurl, rfl, rfl, rfl⟩

end VaultSettings

end VaultTokens
