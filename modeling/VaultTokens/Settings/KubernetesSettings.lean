import VaultTokens.Settings.RenewalPolicy
import VaultTokens.Text.Blank

/-!
# Settings of the Kubernetes strategy

The role to log in with and where the service account token comes from. The role is never blank,
and neither is a token given inline: one that is blank counts as not given.

Main statement: `make_eq_ok` (settings that are made have the values given).
-/

namespace VaultTokens

/-- Where the service account token is unless another file is given. -/
def usualTokenFile : String := "/var/run/secrets/kubernetes.io/serviceaccount/token"

/-- How many seconds before expiry a token is replaced unless another number is given. -/
def usualThreshold : UInt64 := 30

/-- Settings of the Kubernetes strategy. -/
structure KubernetesSettings where
  /-- The server. -/
  url : Url
  /-- The role to log in with. -/
  role : String
  /-- The service account token to send if the file cannot be read. -/
  inlineToken : Option String
  /-- The file with the service account token. -/
  tokenFile : String
  /-- How many seconds before expiry a token that is asked for is replaced. -/
  threshold : UInt64
  /-- How tokens are renewed in the background. -/
  renewal : RenewalPolicy
  /-- The role is not blank. -/
  role_named : Text.isAllBlank role = false
  /-- An inline token is not blank. -/
  inline_named : ∀ t, inlineToken = some t → Text.isAllBlank t = false

namespace KubernetesSettings

/-- What may be given for the settings of the Kubernetes strategy. -/
structure Choices where
  /-- The server. -/
  url : String
  /-- The role to log in with. -/
  role : String
  /-- The service account token to send if the file cannot be read. -/
  inlineToken : Option String
  /-- The file with the service account token. -/
  tokenFile : Option String
  /-- How many seconds before expiry a token is replaced. -/
  threshold : Option UInt64
  /-- How tokens are renewed in the background. -/
  renewal : Option RenewalPolicy
  deriving DecidableEq

/-- The settings of some choices, unless the URL is none or the role is blank. -/
def make (c : Choices) : Except Refusal KubernetesSettings :=
  match readUrl c.url with
  | .error r => .error r
  | .ok url =>
    if hrole : Text.isAllBlank c.role = false then
      .ok
        { url := url
          role := c.role
          inlineToken := c.inlineToken.filter fun t => !Text.isAllBlank t
          tokenFile := c.tokenFile.getD usualTokenFile
          threshold := c.threshold.getD usualThreshold
          renewal := c.renewal.getD .usual
          role_named := hrole
          inline_named := fun _ h => by simpa using (Option.filter_eq_some_iff.1 h).2 }
    else .error .roleBlank

/-- The settings on one line, without the token. A path is quoted the way other texts are, with an
apostrophe in it as it is. -/
def describe (s : KubernetesSettings) : String :=
  Text.record "KubernetesAuthConfig"
    [("vault_url", Text.quote s.url.toString),
      ("role", Text.quote s.role),
      ("service_account_token", Text.optional (s.inlineToken.map fun _ => Text.hidden)),
      ("service_account_token_path", Text.quote s.tokenFile),
      ("expiration_threshold_seconds", toString s.threshold.toNat),
      ("renewal", s.renewal.describe)]

/-- Settings that are made have the values given, or the usual ones. -/
theorem make_eq_ok {c : Choices} {s : KubernetesSettings} (h : make c = .ok s) :
    readUrl c.url = .ok s.url ∧ s.role = c.role ∧
      s.inlineToken = (c.inlineToken.filter fun t => !Text.isAllBlank t) ∧
      s.renewal = c.renewal.getD .usual := by
  simp only [make] at h
  split at h
  · cases h
  · rename_i url hurl
    split at h
    · simp only [Except.ok.injEq] at h
      subst h
      exact ⟨hurl, rfl, rfl, rfl⟩
    · cases h

end KubernetesSettings

end VaultTokens
