import VaultTokens.Failure
import VaultTokens.Json.Reader
import VaultTokens.Text.Utf8
import VaultTokens.Url.Locator

/-!
# Requests and replies

What is sent to a server and what comes back. A request that cannot be put into the form the
protocol needs is not sent at all. A reply has a status and a body; the body may fail to arrive to
its end, and there may be no reply whatsoever.

Main statement: `ready_eq_ok_iff` (which requests are sent).
-/

namespace VaultTokens

/-- What is asked of a resource. -/
inductive Verb where
  /-- To show it. -/
  | get
  /-- To take something in. -/
  | post
  /-- To be gone. -/
  | delete
  deriving DecidableEq, Repr

/-- A request to a server. -/
structure Request where
  /-- What is asked. -/
  verb : Verb
  /-- Of which resource. -/
  url : Url
  /-- The token sent along. -/
  token : Option String
  /-- The document sent along. -/
  body : Option String
  deriving DecidableEq

/-- What comes of a request that was sent. -/
inductive Reply where
  /-- No status arrived: there is no connection, it ended, or the time was up. -/
  | lost
  /-- A status, and the body if it arrived to its end. -/
  | response (status : Nat) (body : Option (List UInt8))
  deriving DecidableEq

namespace Http

/-- Whether a token can be sent along: it has no control character but the tab. -/
def isHeaderValue (s : String) : Bool :=
  s.toList.all fun c => c = '\t' || (0x20 ≤ c.toNat && c.toNat ≠ 0x7f)

/-- The characters that a URL's host admits and a request does not. -/
def isForeignToRequests (c : Char) : Bool :=
  c = '\"' || c = '\x60' || c = '\x7b' || c = '\x7d'

/-- Whether a request can be made to a URL: it is not too long, and its host is admitted. -/
def isTarget (url : Url) : Bool :=
  let text := url.withoutCredentials.toString
  text.utf8ByteSize ≤ 65534 && !url.host.render.toList.any isForeignToRequests

/-- How a URL is shown in a failure. -/
def shown (url : String) : String := " for url (" ++ url ++ ")"

/-- Why a URL cannot even be asked. -/
def notBuilt : String := "builder error"

/-- Why a request that was sent has no status. -/
def notSent (url : Url) : String :=
  "error sending request" ++ shown url.withoutCredentials.toString

/-- Why a URL of another scheme cannot be asked. -/
def notServed (url : Url.Foreign) : String := notBuilt ++ shown url.withoutCredentials.toString

/-- Why a reply cannot be read. -/
def notDecoded : String := "error decoding response body"

/-- The request if it can be sent, or why it cannot. -/
def ready (r : Request) : Except String Request :=
  if r.token.all isHeaderValue then
    if isTarget r.url then .ok r else .error (notBuilt ++ shown r.url.withoutCredentials.toString)
  else .error notBuilt

/-- Whether a status means success. -/
def isSuccess (status : Nat) : Bool := 200 ≤ status && status < 300

/-- A body as text; nothing if it did not arrive to its end. -/
def bodyText : Option (List UInt8) → String
  | none => ""
  | some bytes => String.ofList (Text.Utf8.decodeLossy bytes)

/-- The document in a body. -/
def document? (body : Option (List UInt8)) : Option Json.Node :=
  body.bind fun bytes => Json.parse? (Text.Utf8.decode bytes)

/-- What a status other than success means. -/
def statusKind (status : Nat) : Failure.Kind :=
  if status = 400 ∨ status = 404 then .invalidData
  else if status = 401 then .authentication
  else if status = 403 then .permissionDenied
  else .network

/-- The failure of a request that was answered with a status other than success. -/
def statusFailure (context : String) (status : Nat) (body : Option (List UInt8)) : Failure :=
  ⟨statusKind status, context ++ " with status " ++ toString status ++ ": " ++ bodyText body⟩

/-- The requests that are sent are those with a token that can be sent, to a URL that can be
asked. -/
theorem ready_eq_ok_iff {r s : Request} :
    ready r = .ok s ↔ r = s ∧ r.token.all isHeaderValue = true ∧ isTarget r.url = true := by
  simp only [ready]
  split
  · split <;> simp_all
  · simp_all

end Http

end VaultTokens
