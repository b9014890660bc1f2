import VaultTokens.Json.Writer
import VaultTokens.Login.Answer
import VaultTokens.ServiceAccount
import VaultTokens.Settings.KubernetesSettings
import VaultTokens.Settings.TokenSettings

/-!
# Methods of obtaining a token

Two methods need an exchange with the server: a *login* with a service account, which obtains a new
token, and a *renewal*, which extends the lease of the token it is sent with. A method says what is
sent, what comes of the reply, how much of a lease may be left before a token is replaced, and
whether a caller that waited for another one's exchange takes over its result.

Main statement: `prepare_kubernetes_eq_ok` (what a login with a service account sends).
-/

namespace VaultTokens

namespace Login

/-- The words of logins with a service account. -/
def kubernetesWords : Words where
  unreached := "Failed to reach Vault for Kubernetes login"
  refused := "Kubernetes login failed"
  unreadable := "Failed to parse Kubernetes login response"

/-- The words of renewals in place. -/
def renewalWords : Words where
  unreached := "Failed to renew token"
  refused := "Token renewal failed"
  unreadable := "Failed to parse token renewal response"

/-- Where logins are sent to on a server. -/
def kubernetesEndpoint (server : Url.Locator) : String :=
  Url.join server.toString "v1/auth/kubernetes/login"

/-- Where renewals are sent to on a server. -/
def renewalEndpoint (server : Url) : String :=
  Url.join server.toString "v1/auth/token/renew-self"

/-- The document that a login sends. -/
def kubernetesBody (role jwt : String) : String :=
  String.ofList (Json.writeObject [("role", Json.writeText role), ("jwt", Json.writeText jwt)])

/-- The document that a renewal sends. -/
def renewalBody (ttl : UInt64) : String :=
  String.ofList (Json.writeObject [("increment", Json.writeText (toString ttl.toNat ++ "s"))])

/-- A request to an endpoint, if it can be sent. -/
def post (w : Words) (endpoint : String) (token : Option String) (body : String) :
    Except Failure Request :=
  match Url.Locator.parse? endpoint with
  | none => .error (unreached w Http.notBuilt)
  | some (.foreign url) => .error (unreached w (Http.notServed url))
  | some (.server url) => prepare w { verb := .post, url, token, body := some body }

/-- The request of a login. Of a URL of another scheme there is none. -/
def kubernetesRequest (server : Url.Locator) (role jwt : String) : Except Failure Request :=
  post kubernetesWords (kubernetesEndpoint server) none (kubernetesBody role jwt)

end Login

/-- A method of obtaining a token by an exchange with a server. -/
inductive Method where
  /-- A login of a role with a service account; a token is replaced when no more than the threshold
  is left of its lease. -/
  | kubernetes (server : Url) (role : String) (account : ServiceAccount) (threshold : Span)
  /-- A renewal of a token in place, asking for a time to live. -/
  | renewal (server : Url) (token : String) (ttl : UInt64) (threshold : Span)

namespace Method

/-- The span of as many seconds, or the longest one if there is none. -/
def thresholdOf (seconds : UInt64) : Span := (Span.ofWord? seconds).getD Span.greatest

/-- The method of a Kubernetes strategy, unless there is no service account token. -/
def ofKubernetes (s : KubernetesSettings) (files : FileTree) : Except Failure Method :=
  match ServiceAccount.make files s.tokenFile s.inlineToken with
  | .error f => .error f
  | .ok account => .ok (.kubernetes s.url s.role account (thresholdOf s.threshold))

/-- The method of a token strategy. -/
def ofToken (s : TokenSettings) : Method :=
  .renewal s.url s.token s.ttl (thresholdOf s.renewal.buffer)

/-- How much of a lease may be left before its token is replaced. -/
def threshold : Method → Span
  | .kubernetes _ _ _ threshold => threshold
  | .renewal _ _ _ threshold => threshold

/-- Whether a caller that waited takes over the result of the exchange it waited for. -/
def joins : Method → Bool
  | .kubernetes .. => true
  | .renewal .. => false

/-- Whether an exchange begins with reading a file. -/
def readsFile : Method → Bool
  | .kubernetes .. => true
  | .renewal .. => false

/-- The token that is served without an exchange. -/
def ownToken : Method → Option String
  | .kubernetes .. => none
  | .renewal _ token _ _ => some token

/-- The words in which failures are reported. -/
def words : Method → Login.Words
  | .kubernetes .. => Login.kubernetesWords
  | .renewal .. => Login.renewalWords

/-- The request of an exchange, or why there is none. -/
def prepare (m : Method) (files : FileTree) : Except Failure Request :=
  match m with
  | .kubernetes server role account _ =>
    match account.read files with
    | .error f => .error f
    | .ok jwt => Login.kubernetesRequest (.server server) role jwt
  | .renewal server token ttl _ =>
    Login.post Login.renewalWords (Login.renewalEndpoint server) (some token)
      (Login.renewalBody ttl)

/-- What comes of an exchange. -/
def conclude (m : Method) (r : Request) (reply : Reply) : Except Failure Issued :=
  Login.conclude m.words r.url reply

/-- A login sends the service account token that it has read. -/
theorem prepare_kubernetes_eq_ok {server : Url} {role : String} {account : ServiceAccount}
    {threshold : Span} {files : FileTree} {r : Request} :
    (kubernetes server role account threshold).prepare files = .ok r ↔
      ∃ jwt, account.read files = .ok jwt ∧
        Login.kubernetesRequest (.server server) role jwt = .ok r := by
  rw [prepare]
  cases account.read files <;> simp

@[simp]
theorem conclude_lost (m : Method) (r : Request) :
    m.conclude r .lost = .error (Login.unreached m.words (Http.notSent r.url)) := rfl

end Method

end VaultTokens
