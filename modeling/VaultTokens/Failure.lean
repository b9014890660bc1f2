/-!
# Failures

Everything that can go wrong while a token is obtained, renewed or used. A failure is a kind and a
detail. The kind decides how the failure is announced and whether the call may be repeated; the
detail is the text that follows the announcement.

Main statement: `message_injective` says that within one kind the message determines the detail.
-/

namespace VaultTokens

/-- What a failure is about. -/
inductive Failure.Kind where
  /-- The store holds no secret under the key. -/
  | secretNotFound
  /-- The server was not reached, or answered with a status that has no meaning of its own. -/
  | network
  /-- No token could be obtained, or the server did not accept it. -/
  | authentication
  /-- The token is known but does not permit the operation. -/
  | permissionDenied
  /-- The server refused what was sent, or sent what cannot be read. -/
  | invalidData
  /-- A setting is missing or contradicts another one. -/
  | configuration
  /-- No strategy is registered under the name. -/
  | unknownMethod
  /-- The service account token cannot be read, or is blank. -/
  | serviceAccount
  /-- The server answers, but is not ready to serve. -/
  | unavailable
  deriving DecidableEq, Repr

/-- A failure of one kind with its detail. -/
structure Failure where
  /-- What the failure is about. -/
  kind : Failure.Kind
  /-- What is known beyond the kind. -/
  detail : String
  deriving DecidableEq, Repr

namespace Failure

/-- Every kind once. -/
def Kind.all : List Kind :=
  [.secretNotFound, .network, .authentication, .permissionDenied, .invalidData, .configuration,
    .unknownMethod, .serviceAccount, .unavailable]

/-- The short name under which a kind is listed. -/
def Kind.name : Kind → String
  | .secretNotFound => "SecretNotFound"
  | .network => "NetworkError"
  | .authentication => "AuthenticationError"
  | .permissionDenied => "PermissionDenied"
  | .invalidData => "InvalidData"
  | .configuration => "ConfigurationError"
  | .unknownMethod => "UnknownAuthMethod"
  | .serviceAccount => "ServiceAccountTokenError"
  | .unavailable => "Unavailable"

/-- The kind listed under a name. -/
def Kind.ofName? (name : String) : Option Kind :=
  Kind.all.find? fun kind => kind.name = name

/-- The words with which a failure of this kind is announced. -/
def Kind.announcement : Kind → String
  | .secretNotFound => "Secret not found: "
  | .network => "Network error: "
  | .authentication => "Authentication error: "
  | .permissionDenied => "Permission denied: "
  | .invalidData => "Invalid data: "
  | .configuration => "Configuration error: "
  | .unknownMethod => "No auth method registered under name: "
  | .serviceAccount => "Service account token error: "
  | .unavailable => "Vault unavailable: "

/-- The failure as a reader sees it. -/
def message (f : Failure) : String :=
  f.kind.announcement ++ f.detail

/-- Whether the same call may succeed when it is repeated later. -/
def isRetriable (f : Failure) : Bool :=
  match f.kind with
  | .network | .authentication | .unavailable => true
  | _ => false

/-- A failure of the network, or of a status without a meaning of its own. -/
def network (detail : String) : Failure := ⟨.network, detail⟩

/-- A failure to obtain a token. -/
def authentication (detail : String) : Failure := ⟨.authentication, detail⟩

/-- An answer that cannot be read, or a request that was refused as unreadable. -/
def invalidData (detail : String) : Failure := ⟨.invalidData, detail⟩

/-- A setting that cannot be used. -/
def configuration (detail : String) : Failure := ⟨.configuration, detail⟩

/-- A service account token that cannot be used. -/
def serviceAccount (detail : String) : Failure := ⟨.serviceAccount, detail⟩

theorem ofName?_name (kind : Kind) : Kind.ofName? kind.name = some kind := by
  cases kind <;> decide

/-- Within one kind, different details give different messages. -/
theorem message_injective {kind : Kind} {a b : String}
    (h : message ⟨kind, a⟩ = message ⟨kind, b⟩) : a = b := by
  simpa [message] using h

end Failure

end VaultTokens
