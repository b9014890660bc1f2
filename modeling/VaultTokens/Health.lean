import VaultTokens.Http
import VaultTokens.Secrets.Address

/-!
# Health of the server

One request without a token asks whether the server is ready. A status of success means that it is;
some other statuses have a meaning of their own, which is told together with the body.
-/

namespace VaultTokens.Health

/-- The request that asks for the server's health. -/
def request (s : VaultSettings) : Request where
  verb := .get
  url := Secrets.healthAddress s
  token := none
  body := none

/-- What a status says about a server that is not ready. -/
def reason (status : Nat) : String :=
  if status = 429 then "Vault is in standby"
  else if status = 472 then "Vault is in recovery mode"
  else if status = 473 then "Vault is in performance standby"
  else if status = 501 then "Vault is not initialized"
  else if status = 503 then "Vault is sealed"
  else "Vault returned unspecified code " ++ toString status

/-- The failure of a check without an answer. -/
def unreached (reason : String) : Failure :=
  .network ("Failed to perform healthcheck with reason: " ++ reason)

/-- The request if it can be sent. -/
def prepare (s : VaultSettings) : Except Failure Request :=
  match Http.ready (request s) with
  | .ok r => .ok r
  | .error reason => .error (unreached reason)

/-- What comes of a check. -/
def conclude (url : Url) : Reply → Except Failure Unit
  | .lost => .error (unreached (Http.notSent url))
  | .response status body =>
    if Http.isSuccess status then .ok ()
    else
      .error
        ⟨.unavailable, "Vault is not available. Reason: " ++ reason status ++
          ", additional information: " ++ Http.bodyText body⟩

@[simp]
theorem token_request (s : VaultSettings) : (request s).token = none := rfl

end VaultTokens.Health
