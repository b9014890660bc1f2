import VaultTokens.Http
import VaultTokens.Json.Record
import VaultTokens.Lease

/-!
# Answers to logins

What the server says when it issues or renews a token: a record `auth` with the token and with the
seconds it was issued for. Zero seconds, or none given, mean that the token never expires.

An exchange is one such request with its reply. Its words are the texts in which its failures are
reported; apart from them all exchanges conclude alike.

Main statements: `conclude_lost` and `conclude_status` (how an exchange fails before its answer is
read).
-/

namespace VaultTokens

/-- The token that a document issues. -/
def Issued.ofNode? (node : Json.Node) : Option Issued :=
  match Json.record? ["auth"] node with
  | some [some auth] =>
    match Json.record? ["client_token", "lease_duration"] auth with
    | some [some token, none] => token.text?.map fun token => ⟨token, none⟩
    | some [some token, some seconds] => do
      let token ← token.text?
      let seconds ← seconds.word?
      return ⟨token, if seconds = 0 then none else some seconds⟩
    | _ => none
  | _ => none

namespace Login

/-- The texts in which the failures of an exchange are reported. -/
structure Words where
  /-- No status arrived. -/
  unreached : String
  /-- The status is none of success. -/
  refused : String
  /-- The answer cannot be read. -/
  unreadable : String
  deriving DecidableEq, Repr

/-- The failure of an exchange without a status. -/
def unreached (w : Words) (reason : String) : Failure :=
  .network (w.unreached ++ ": " ++ reason)

/-- What comes of an exchange with a server. -/
def conclude (w : Words) (url : Url) : Reply → Except Failure Issued
  | .lost => .error (unreached w (Http.notSent url))
  | .response status body =>
    if Http.isSuccess status then
      match (Http.document? body).bind Issued.ofNode? with
      | some issued => .ok issued
      | none => .error (.invalidData (w.unreadable ++ ": " ++ Http.notDecoded))
    else .error (Http.statusFailure w.refused status body)

/-- The request of an exchange, if it can be sent. -/
def prepare (w : Words) (r : Request) : Except Failure Request :=
  match Http.ready r with
  | .ok r => .ok r
  | .error reason => .error (unreached w reason)

@[simp]
theorem conclude_lost (w : Words) (url : Url) :
    conclude w url .lost = .error (unreached w (Http.notSent url)) := rfl

/-- A status other than success is a failure, whatever the body says. -/
theorem conclude_status {w : Words} {url : Url} {status : Nat} {body : Option (List UInt8)}
    (h : Http.isSuccess status = false) :
    conclude w url (.response status body) = .error (Http.statusFailure w.refused status body) := by
  simp [conclude, h]

end Login

end VaultTokens
