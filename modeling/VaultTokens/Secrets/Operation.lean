import VaultTokens.Http
import VaultTokens.Secrets.Address
import VaultTokens.Secrets.Content
import VaultTokens.Secrets.Version

/-!
# Operations on secrets

A secret is read, written or removed under its key. Each operation is one request with a token, and
what the server answers decides alone what comes of it.

That there is no secret under a key is a failure of its own when the secret is read, and none at all
when it is removed.

Main statement: `prepare_eq_ok` (a request that is ready is the operation's own).
-/

namespace VaultTokens.Secrets

/-- What is done with a secret. -/
inductive Operation where
  /-- It is read. -/
  | resolve (key : String)
  /-- It is written. -/
  | store (key content : String)
  /-- It is removed with all its versions. -/
  | remove (key : String)
  deriving DecidableEq, Repr

/-- What comes of an operation that succeeds. -/
inductive Gain where
  /-- Nothing to tell. -/
  | nothing
  /-- The content that was read. -/
  | content (text : String)
  /-- The version that was written. -/
  | version (v : Version)
  deriving DecidableEq, Repr

namespace Operation

/-- The key of the secret. -/
def key : Operation → String
  | .resolve key => key
  | .store key _ => key
  | .remove key => key

/-- What is asked of the address. -/
def verb : Operation → Verb
  | .resolve _ => .get
  | .store .. => .post
  | .remove _ => .delete

/-- The entry that is addressed. -/
def entry : Operation → Entry
  | .resolve _ => .content
  | .store .. => .content
  | .remove _ => .metadata

/-- The document that is sent along. -/
def body : Operation → Option String
  | .resolve _ => none
  | .store _ content => some (envelope content)
  | .remove _ => none

/-- The words for an operation whose request has no answer. -/
def unreachedWords : Operation → String
  | .resolve _ => "Failed to get secret"
  | .store .. => "Failed to set secret"
  | .remove _ => "Failed to destroy secret"

/-- The words for an operation that the server refuses. -/
def refusedWords : Operation → String
  | .resolve _ => "Failed to get secret"
  | .store key _ => "Failed to set secret " ++ key
  | .remove key => "Failed to destroy secret " ++ key

/-- The request of an operation with a token. -/
def request (s : VaultSettings) (op : Operation) (token : String) : Request where
  verb := op.verb
  url := address s op.entry op.key
  token := some token
  body := op.body

/-- The failure of an operation without an answer. -/
def unreached (op : Operation) (reason : String) : Failure :=
  .network (op.unreachedWords ++ " with reason: " ++ reason)

/-- The request of an operation if it can be sent. -/
def prepare (s : VaultSettings) (op : Operation) (token : String) : Except Failure Request :=
  match Http.ready (op.request s token) with
  | .ok r => .ok r
  | .error reason => .error (op.unreached reason)

/-- What comes of the answer to a secret that is read. -/
def concludeResolve (body : Option (List UInt8)) : Except Failure Gain :=
  match (Http.document? body).bind answered? with
  | none => .error (.invalidData ("Failed to parse secret response: " ++ Http.notDecoded))
  | some members =>
    match contentIn members with
    | some text => .ok (.content text)
    | none => .error (.invalidData "Content field not found or not a string")

/-- What comes of the answer to a secret that is written. -/
def concludeStore (body : Option (List UInt8)) : Except Failure Gain :=
  match (Http.document? body).bind Version.ofAnswer? with
  | none => .error (.invalidData ("Failed to parse set secret response: " ++ Http.notDecoded))
  | some v => .ok (.version v)

/-- What comes of an operation whose answer means success. -/
def concludeSuccess (op : Operation) (body : Option (List UInt8)) : Except Failure Gain :=
  match op with
  | .resolve _ => concludeResolve body
  | .store .. => concludeStore body
  | .remove _ => .ok .nothing

/-- What comes of an operation if there is no secret under the key. -/
def concludeNotFound (op : Operation) (body : Option (List UInt8)) : Except Failure Gain :=
  match op with
  | .resolve key => .error ⟨.secretNotFound, key⟩
  | .store .. => .error (Http.statusFailure op.refusedWords 404 body)
  | .remove _ => .ok .nothing

/-- What comes of an operation. -/
def conclude (op : Operation) (url : Url) : Reply → Except Failure Gain
  | .lost => .error (op.unreached (Http.notSent url))
  | .response status body =>
    if Http.isSuccess status then op.concludeSuccess body
    else if status = 404 then op.concludeNotFound body
    else .error (Http.statusFailure op.refusedWords status body)

@[simp]
theorem conclude_lost (op : Operation) (url : Url) :
    op.conclude url .lost = .error (op.unreached (Http.notSent url)) := rfl

/-- A request that is ready is the operation's own, with its token. -/
theorem prepare_eq_ok {s : VaultSettings} {op : Operation} {token : String} {r : Request}
    (h : op.prepare s token = .ok r) : r = op.request s token := by
  simp only [prepare] at h
  split at h
  · rename_i r' hr
    simp only [Except.ok.injEq] at h
    exact (h ▸ (Http.ready_eq_ok_iff.1 hr).1).symm
  · cases h

end Operation

end VaultTokens.Secrets
