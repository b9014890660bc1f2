import VaultTokens.Authenticator
import VaultTokens.Health
import VaultTokens.Registry
import VaultTokens.Secrets.Operation

/-!
# Errands

What callers want of the services: to know whether the server is healthy, to do something with a
secret, or to get a login or a token from a strategy. An errand goes through its stages one at a
time. Some errands ask a strategy first and then send a request with the token they got; others do
only one of the two.
-/

namespace VaultTokens

/-- What a caller wants. -/
inductive Errand where
  /-- To know whether the server is healthy. -/
  | health
  /-- To do something with a secret. -/
  | secret (operation : Secrets.Operation)
  /-- To have the strategy under a name log in. -/
  | login (name : String)
  /-- To have the current token of the strategy under a name. -/
  | token (name : String)
  /-- To log in with a service account token, without a strategy. -/
  | kubernetesLogin (server : Url.Locator) (role jwt : String)
  deriving DecidableEq

namespace Errand

/-- What a caller gets. -/
inductive Outcome where
  /-- Of a check of the server's health. -/
  | checked (result : Except Failure Unit)
  /-- Of an operation on a secret. -/
  | secret (result : Except Failure Secrets.Gain)
  /-- Of a login. -/
  | issued (result : Except Failure Issued)
  /-- Of a question for a token. -/
  | token (result : Except Failure String)

/-- How far an errand has come. -/
inductive Stage where
  /-- Nothing has happened yet. -/
  | begun
  /-- It waits for a call to a strategy. -/
  | asking (provider : Exchanger) (call : Nat)
  /-- It has a token and will send its request. -/
  | sending (token : String)
  /-- It waits for the reply to its request. -/
  | exchanging (request : Request)
  /-- It is over. -/
  | finished (outcome : Outcome)

/-- The outcome of an errand that fails. -/
def failed (e : Errand) (f : Failure) : Outcome :=
  match e with
  | .health => .checked (.error f)
  | .secret _ => .secret (.error f)
  | .login _ => .issued (.error f)
  | .token _ => .token (.error f)
  | .kubernetesLogin .. => .issued (.error f)

/-- The name of the strategy that an errand asks first, and what it asks for; `method` is the
strategy for operations on secrets. -/
def demand? (method : String) : Errand → Option (String × Authenticator.Demand)
  | .health => none
  | .secret _ => some (method, .token)
  | .login name => some (name, .login)
  | .token name => some (name, .token)
  | .kubernetesLogin .. => none

/-- The stage behind the answer of a strategy, if it answers what the errand asked. -/
def answered? (e : Errand) : Authenticator.Answer → Option Stage
  | .token (.ok held) =>
    match e with
    | .secret _ => some (.sending held)
    | .token _ => some (.finished (.token (.ok held)))
    | _ => none
  | .token (.error f) => some (.finished (e.failed f))
  | .issued result =>
    match e with
    | .login _ => some (.finished (.issued result))
    | _ => none

/-- The request of an errand with the token that it got; `none` if it sends nothing. -/
def request? (s : VaultSettings) (e : Errand) (held : String) : Option (Except Failure Request) :=
  match e with
  | .health => some (Health.prepare s)
  | .secret op => some (op.prepare s held)
  | .kubernetesLogin server role jwt => some (Login.kubernetesRequest server role jwt)
  | _ => none

/-- The outcome of an errand whose request was answered. -/
def conclude? (e : Errand) (r : Request) (reply : Reply) : Option Outcome :=
  match e with
  | .health => some (.checked (Health.conclude r.url reply))
  | .secret op => some (.secret (op.conclude r.url reply))
  | .kubernetesLogin .. => some (.issued (Login.conclude Login.kubernetesWords r.url reply))
  | _ => none

/-- What a strategy with a fixed token answers. -/
def fixedAnswer (held : String) : Authenticator.Demand → Authenticator.Answer
  | .login => .issued (.ok (Issued.fixed held))
  | .token => .token (.ok held)

end Errand

end VaultTokens
