import VaultTokens.Settings.Setup
import VaultTokens.Text.Numeral

/-!
# Properties

Settings in a flat map from names to text. Twenty names are known, and nothing else is read. A
value is read without the blanks around it, and a value that is blank counts as absent.

The Kubernetes strategy is offered if its role is there, the token strategy if its token is there;
otherwise their other properties are not looked at. Properties are read in a fixed order, and the
first one that is refused is the one that is reported.

Main statements: `kubernetes_of_role_none` and `token_of_token_none` (a strategy without its first
property is not offered).
-/

namespace VaultTokens

/-- The names of properties that are read. -/
inductive Property where
  /-- The server. -/
  | url
  /-- The strategy whose token is sent along. -/
  | method
  /-- The token of the fallback strategy. -/
  | fallbackToken
  /-- Whether health is checked on startup. -/
  | healthCheck
  /-- Where health is checked. -/
  | healthPath
  /-- Whether a standby server counts as healthy. -/
  | standbyOk
  /-- Where the store is. -/
  | secretPath
  /-- The folder below the store. -/
  | folder
  /-- How long a request may take, in seconds. -/
  | timeout
  /-- The role to log in with. -/
  | role
  /-- The inline service account token. -/
  | inlineToken
  /-- The file with the service account token. -/
  | tokenFile
  /-- How many seconds before expiry a token is replaced. -/
  | threshold
  /-- Whether tokens of the Kubernetes strategy are renewed in the background. -/
  | kubernetesRenewal
  /-- How many seconds before expiry they are renewed. -/
  | kubernetesBuffer
  /-- The token that is renewed in place. -/
  | token
  /-- Whether it is renewed in the background. -/
  | tokenRenewal
  /-- The time to live asked for. -/
  | tokenTtl
  /-- How many seconds before expiry it is renewed. -/
  | tokenBuffer
  /-- How often a failed renewal is repeated. -/
  | maxRetries
  deriving DecidableEq, Repr

namespace Property

/-- Every property once. -/
def all : List Property :=
  [.url, .method, .fallbackToken, .healthCheck, .healthPath, .standbyOk, .secretPath, .folder,
    .timeout, .role, .inlineToken, .tokenFile, .threshold, .kubernetesRenewal, .kubernetesBuffer,
    .token, .tokenRenewal, .tokenTtl, .tokenBuffer, .maxRetries]

/-- The name under which a property is looked up. -/
def key : Property → String
  | .url => "edc.vault.hashicorp.url"
  | .method => "edc.vault.hashicorp.auth.method"
  | .fallbackToken => "edc.vault.hashicorp.fallbackToken"
  | .healthCheck => "edc.vault.hashicorp.health.check.enabled"
  | .healthPath => "edc.vault.hashicorp.api.health.check.path"
  | .standbyOk => "edc.vault.hashicorp.health.check.standby.ok"
  | .secretPath => "edc.vault.hashicorp.api.secret.path"
  | .folder => "edc.vault.hashicorp.folder"
  | .timeout => "edc.vault.hashicorp.request.timeout.seconds"
  | .role => "edc.vault.hashicorp.auth.kubernetes.role"
  | .inlineToken => "edc.vault.hashicorp.auth.kubernetes.service.account.token"
  | .tokenFile => "edc.vault.hashicorp.auth.kubernetes.service.account.token.path"
  | .threshold => "edc.vault.hashicorp.auth.kubernetes.expiration.threshold.seconds"
  | .kubernetesRenewal => "edc.vault.hashicorp.auth.kubernetes.renew.enabled"
  | .kubernetesBuffer => "edc.vault.hashicorp.auth.kubernetes.renew-buffer"
  | .token => "edc.vault.hashicorp.token"
  | .tokenRenewal => "edc.vault.hashicorp.token.scheduled-renew-enabled"
  | .tokenTtl => "edc.vault.hashicorp.token.ttl"
  | .tokenBuffer => "edc.vault.hashicorp.token.renew-buffer"
  | .maxRetries => "edc.vault.hashicorp.renew.max-retries"

theorem mem_all (p : Property) : p ∈ all := by cases p <;> decide

end Property

/-- A flat map from names to text. -/
abbrev Properties := String → Option String

namespace Properties

/-- The value of a property without the blanks around it, unless it is blank. -/
def text? (values : Properties) (p : Property) : Option String :=
  ((values p.key).map Text.trim).filter (· ≠ "")

/-- The value of a property that must be there. -/
def required (values : Properties) (p : Property) : Except Refusal String :=
  match values.text? p with
  | some value => .ok value
  | none => .error (.missing p.key)

/-- The value of a property in its own form, refused if it is of another one. -/
def read {α : Type} (values : Properties) (form : String → Option α) (p : Property) :
    Except Refusal (Option α) :=
  match values.text? p with
  | none => .ok none
  | some value =>
    match form value with
    | some a => .ok (some a)
    | none => .error (.unreadable value p.key)

/-- The settings of the secret client. -/
def vault (values : Properties) : Except Refusal VaultSettings := do
  let url ← values.required .url
  let healthCheck ← values.read Text.readBool? .healthCheck
  let standbyOk ← values.read Text.readBool? .standbyOk
  let timeout ← values.read Text.readUInt64? .timeout
  VaultSettings.make
    { url, healthCheck, standbyOk
      method := values.text? .method
      fallbackToken := values.text? .fallbackToken
      healthPath := values.text? .healthPath
      secretPath := values.text? .secretPath
      folder := values.text? .folder
      timeout := timeout.map Duration.ofSecs }

/-- The settings of the Kubernetes strategy, if its role is there. -/
def kubernetes (values : Properties) : Except Refusal (Option KubernetesSettings) :=
  match values.text? .role with
  | none => .ok none
  | some role => do
    let enabled ← values.read Text.readBool? .kubernetesRenewal
    let buffer ← values.read Text.readUInt64? .kubernetesBuffer
    let maxRetries ← values.read Text.readUInt32? .maxRetries
    let renewal ←
      RenewalPolicy.make { ttl := none, buffer, enabled, maxRetries, retryDelay := none }
    let url ← values.required .url
    let threshold ← values.read Text.readUInt64? .threshold
    let settings ← KubernetesSettings.make
      { url, role, threshold
        inlineToken := values.text? .inlineToken
        tokenFile := values.text? .tokenFile
        renewal := some renewal }
    return some settings

/-- The settings of the token strategy, if its token is there. -/
def token (values : Properties) : Except Refusal (Option TokenSettings) :=
  match values.text? .token with
  | none => .ok none
  | some token => do
    let enabled ← values.read Text.readBool? .tokenRenewal
    let ttl ← values.read Text.readUInt64? .tokenTtl
    let buffer ← values.read Text.readUInt64? .tokenBuffer
    let maxRetries ← values.read Text.readUInt32? .maxRetries
    let renewal ← RenewalPolicy.make { ttl, buffer, enabled, maxRetries, retryDelay := none }
    let url ← values.required .url
    let settings ← TokenSettings.make { url, token, renewal := some renewal }
    return some settings

/-- All settings. -/
def setup (values : Properties) : Except Refusal Setup := do
  let vault ← values.vault
  let kubernetes ← values.kubernetes
  let token ← values.token
  return { vault, kubernetes, token }

theorem text?_ne_empty {values : Properties} {p : Property} {value : String}
    (h : values.text? p = some value) : value ≠ "" := by
  simpa using (Option.filter_eq_some_iff.1 h).2

theorem kubernetes_of_role_none {values : Properties} (h : values.text? .role = none) :
    values.kubernetes = .ok none := by
  simp [kubernetes, h]

theorem token_of_token_none {values : Properties} (h : values.text? .token = none) :
    values.token = .ok none := by
  simp [token, h]

end Properties

end VaultTokens
