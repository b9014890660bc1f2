import VaultTokens.Login.Method
import VaultTokens.Standing

/-!
# Strategies with a login guard

A strategy serves one token to many callers. Callers ask for a login or for the current token; each
call goes through its phases one at a time, and calls of any number may be under way at once. Before
an exchange a call lines up for the login guard. The line is served in the order of arrival, and who
stands at its head holds the guard until leaving it, so there is never more than one exchange under
way.

A caller at the head of the line looks again before it exchanges anything. A login that waited while
another one succeeded takes over its result, if the method allows; a call for the token goes on
without an exchange if the token is no longer due.

The machine takes one event at a time: a call begins, a call takes its next step, the reply to an
exchange arrives, or a call is given up. A step that is not possible changes nothing. What happens
on the way is reported in notices.

Main statement: `standing_run` (the standing is what the recorded exchanges make of it, in order).
-/

namespace VaultTokens

/-- What a step may look at besides what it changes. -/
structure Surroundings where
  /-- The time on the calendar clock. -/
  now : Timestamp
  /-- The moment on the timer clock, in nanoseconds. -/
  moment : Nat
  /-- The files. -/
  files : FileTree

namespace Authenticator

/-- What a caller asks for. -/
inductive Demand where
  /-- A login, in any case. -/
  | login
  /-- The current token. -/
  | token
  deriving DecidableEq, Repr

/-- What a caller gets. -/
inductive Answer where
  /-- To the demand for a login. -/
  | issued (result : Except Failure Issued)
  /-- To the demand for the current token. -/
  | token (result : Except Failure String)

/-- How far a call has come. -/
inductive Phase where
  /-- It has begun and looked at nothing yet. -/
  | begun
  /-- It goes to the line; so many exchanges had been recorded when it looked. -/
  | arriving (seen : Nat)
  /-- It stands in the line. -/
  | waiting (seen : Nat)
  /-- It holds the guard and will read what the exchange needs. -/
  | presenting
  /-- It holds the guard and waits for the reply to its request. -/
  | exchanging (request : Request)
  /-- It holds the guard and will record what came of the exchange. -/
  | recording (outcome : Except Failure Issued)
  /-- It holds the guard and will release it, with or without its answer. -/
  | leaving (answer : Option Answer)
  /-- It will read the current token. -/
  | reading
  /-- It is over. -/
  | finished (answer : Answer)
  /-- It was given up. -/
  | cancelled

/-- A call. -/
structure Call where
  /-- What is asked for. -/
  demand : Demand
  /-- How far it has come. -/
  phase : Phase

/-- What can happen to a strategy. -/
inductive Event where
  /-- A call begins. -/
  | begin (demand : Demand)
  /-- A call takes its next step. -/
  | advance (call : Nat)
  /-- The reply to the request of a call arrives. -/
  | reply (call : Nat) (reply : Reply)
  /-- A call is given up. -/
  | cancel (call : Nat)

/-- What a step lets others know. -/
inductive Notice where
  /-- A call has got the guard. -/
  | granted (call : Nat)
  /-- A call has sent a request. -/
  | sent (call : Nat) (request : Request)
  /-- The exchange of a call is over, with or without a request. -/
  | ended (call : Nat) (outcome : Except Failure Issued)
  /-- A call has recorded an exchange. -/
  | recorded (call : Nat) (time : Timestamp) (outcome : Except Failure Issued)
  /-- A call is over. -/
  | answered (call : Nat) (answer : Answer)

end Authenticator

/-- A strategy with the calls to it, numbered in the order they began. -/
structure Authenticator where
  /-- What its exchanges have said. -/
  standing : Standing
  /-- How many exchanges have been recorded. -/
  recorded : Nat
  /-- The calls in line for the guard; the first one holds it. -/
  line : List Nat
  /-- The calls. -/
  calls : Array Authenticator.Call

namespace Authenticator

/-- A strategy before its first call. -/
def initial : Authenticator := ⟨.initial, 0, [], #[]⟩

/-- The strategy with a call in another phase. -/
def enter (a : Authenticator) (call : Nat) (phase : Phase) : Authenticator :=
  { a with calls := a.calls.modify call fun c => { c with phase := phase } }

/-- The strategy with a call that is over. -/
def finish (a : Authenticator) (call : Nat) (answer : Answer) : Authenticator × List Notice :=
  (a.enter call (.finished answer), [.answered call answer])

/-- The token that is served, or why there is none. -/
def served (s : Standing) : Except Failure String :=
  match s.token with
  | some token => .ok token
  | none =>
    .error (.authentication ("No Vault token has been obtained with Kubernetes auth: " ++
      s.lastError.getD "login has not been attempted"))

/-- The result of the last exchange, if it succeeded and was recorded after so many others. -/
def succeededSince (a : Authenticator) (seen : Nat) : Option Issued :=
  if a.recorded = seen ∨ a.standing.failures ≠ 0 then none
  else a.standing.lease.map Lease.issued

/-- What a call does that has just got the guard. -/
def admitted (m : Method) (env : Surroundings) (a : Authenticator) (demand : Demand)
    (seen : Nat) : Phase :=
  match demand with
  | .login =>
    match if m.joins then a.succeededSince seen else none with
    | some issued => .leaving (some (.issued (.ok issued)))
    | none => .presenting
  | .token =>
    if a.standing.needsLogin env.now m.threshold then .presenting else .leaving none

/-- What a call brings out of the line once its exchange is recorded. -/
def afterRecording (demand : Demand) (outcome : Except Failure Issued) : Phase :=
  match demand with
  | .login => .leaving (some (.issued outcome))
  | .token => .leaving none

/-- A call takes its next step. -/
def advance (m : Method) (env : Surroundings) (a : Authenticator) (i : Nat) :
    Authenticator × List Notice :=
  match a.calls[i]? with
  | none => (a, [])
  | some call =>
    match call.phase with
    | .begun =>
      match call.demand with
      | .login => (a.enter i (.arriving a.recorded), [])
      | .token =>
        match m.ownToken with
        | some token => a.finish i (.token (.ok token))
        | none =>
          if a.standing.needsLogin env.now m.threshold then (a.enter i (.arriving a.recorded), [])
          else (a.enter i .reading, [])
    | .arriving seen => ({ a with line := a.line ++ [i] }.enter i (.waiting seen), [])
    | .waiting seen =>
      if a.line.head? = some i then
        (a.enter i (a.admitted m env call.demand seen), [.granted i])
      else (a, [])
    | .presenting =>
      match m.prepare env.files with
      | .ok request => (a.enter i (.exchanging request), [.sent i request])
      | .error f => (a.enter i (.recording (.error f)), [.ended i (.error f)])
    | .exchanging _ => (a, [])
    | .recording outcome =>
      ({ a with
          standing := a.standing.record env.now outcome
          recorded := a.recorded + 1 }.enter i (afterRecording call.demand outcome),
        [.recorded i env.now outcome])
    | .leaving answer =>
      let a := { a with line := a.line.erase i }
      match answer with
      | some answer => a.finish i answer
      | none => (a.enter i .reading, [])
    | .reading => a.finish i (.token (served a.standing))
    | .finished _ => (a, [])
    | .cancelled => (a, [])

/-- The reply to the request of a call arrives. -/
def receive (m : Method) (a : Authenticator) (i : Nat) (reply : Reply) :
    Authenticator × List Notice :=
  match a.calls[i]? with
  | some ⟨_, .exchanging request⟩ =>
    let outcome := m.conclude request reply
    (a.enter i (.recording outcome), [.ended i outcome])
  | _ => (a, [])

/-- A call is given up: it leaves the line and has nothing more to say. -/
def cancel (a : Authenticator) (i : Nat) : Authenticator :=
  match a.calls[i]? with
  | none => a
  | some ⟨_, .finished _⟩ => a
  | some _ => { a with line := a.line.erase i }.enter i .cancelled

/-- The strategy after an event, and what the event lets others know. -/
def step (m : Method) (env : Surroundings) (a : Authenticator) :
    Event → Authenticator × List Notice
  | .begin demand => ({ a with calls := a.calls.push ⟨demand, .begun⟩ }, [])
  | .advance i => a.advance m env i
  | .reply i reply => a.receive m i reply
  | .cancel i => (a.cancel i, [])

/-- The strategy after some events, each in surroundings of its own, and all notices in order. -/
def run (m : Method) (a : Authenticator) :
    List (Surroundings × Event) → Authenticator × List Notice
  | [] => (a, [])
  | (env, e) :: rest =>
    let (a, notices) := a.step m env e
    let (a, more) := run m a rest
    (a, notices ++ more)

/-- The answer to a call that is over. -/
def answer? (a : Authenticator) (i : Nat) : Option Answer :=
  match a.calls[i]? with
  | some ⟨_, .finished answer⟩ => some answer
  | _ => none

/-- The request that a call waits for the reply to. -/
def pending? (a : Authenticator) (i : Nat) : Option Request :=
  match a.calls[i]? with
  | some ⟨_, .exchanging request⟩ => some request
  | _ => none

/-- Whether a call can take a step of its own now. -/
def isReady (a : Authenticator) (i : Nat) : Bool :=
  match a.calls[i]? with
  | none => false
  | some call =>
    match call.phase with
    | .waiting _ => a.line.head? = some i
    | .exchanging _ => false
    | .finished _ => false
    | .cancelled => false
    | _ => true

/-- Whether a call holds the guard and will read what its exchange needs. -/
def isPresenting (a : Authenticator) (i : Nat) : Bool :=
  match a.calls[i]? with
  | some ⟨_, .presenting⟩ => true
  | _ => false

/-- How many steps a call can still take. -/
def Phase.stepsLeft : Phase → Nat
  | .begun => 8
  | .arriving _ => 7
  | .waiting _ => 6
  | .presenting => 5
  | .exchanging _ => 4
  | .recording _ => 3
  | .leaving _ => 2
  | .reading => 1
  | .finished _ => 0
  | .cancelled => 0

/-- How many steps all calls can still take. -/
def stepsLeft (a : Authenticator) : Nat :=
  a.calls.foldl (fun n c => n + c.phase.stepsLeft) 0

@[simp]
theorem standing_enter (a : Authenticator) (i : Nat) (phase : Phase) :
    (a.enter i phase).standing = a.standing := rfl

@[simp]
theorem line_enter (a : Authenticator) (i : Nat) (phase : Phase) :
    (a.enter i phase).line = a.line := rfl

@[simp]
theorem size_calls_enter (a : Authenticator) (i : Nat) (phase : Phase) :
    (a.enter i phase).calls.size = a.calls.size := by
  simp [enter]

/-- The outcomes that notices say were recorded, with their times, in order. -/
def outcomes (notices : List Notice) : List (Timestamp × Except Failure Issued) :=
  notices.filterMap fun n =>
    match n with
    | .recorded _ time outcome => some (time, outcome)
    | _ => none

/-- The standing after a step is the one before it with what the step recorded. -/
theorem standing_step (m : Method) (env : Surroundings) (a : Authenticator) (e : Event) :
    (a.step m env e).1.standing =
      (outcomes (a.step m env e).2).foldl (fun s o => s.record o.1 o.2) a.standing := by
  cases e with
  | begin demand => rfl
  | reply i reply =>
    simp only [step, receive, outcomes]
    split <;> rfl
  | cancel i =>
    simp only [step, cancel, outcomes]
    split <;> rfl
  | advance i =>
    simp only [step, advance, finish, outcomes]
    repeat' split
    all_goals simp

/-- The standing after a run is the one before it with everything recorded since, in order. -/
theorem standing_run (m : Method) (a : Authenticator) (events : List (Surroundings × Event)) :
    (a.run m events).1.standing =
      (outcomes (a.run m events).2).foldl (fun s o => s.record o.1 o.2) a.standing := by
  induction events generalizing a with
  | nil => rfl
  | cons e rest ih =>
    simp only [run]
    rw [ih, standing_step]
    simp [outcomes, List.filterMap_append, List.foldl_append]

end Authenticator

end VaultTokens
