import VaultTokens.Services.Startup

/-!
# Sessions

Services that one user works with over a given network, on clocks that stand still in between.
Whatever can happen by itself happens before the user goes on: first everything that waits for
nobody, then the replies, each of them at once.

A user can also make several moves together. Then each of them begins, in order, before anything
happens that takes time: a reply takes time, and so does reading a file, but to learn that a request
is lost takes none.

The steps that services can still take at one moment are bounded, since a call and an errand have
few stages and a scheduler that repeats a login uses up one of its repetitions. The bound is
computed beforehand and serves as fuel.

Main statement: `exhaust_of_none` (nothing happens where nothing can).
-/

namespace VaultTokens

/-- What the server replies to each request that reaches it. -/
abbrev Network := Request → Reply

/-- The network of which nothing is heard but that a request is lost. -/
def Network.losses (network : Network) (request : Request) : Option Reply :=
  if network request = .lost then some .lost else none

/-- Repeats a step until it is not possible, but at most so many times. -/
def exhaust {State Notice : Type} (step : State → Option (State × List Notice)) :
    Nat → State → State × List Notice
  | 0, s => (s, [])
  | fuel + 1, s =>
    match step s with
    | none => (s, [])
    | some (s, notices) =>
      let (s, more) := exhaust step fuel s
      (s, notices ++ more)

/-- Nothing happens where no step is possible. -/
theorem exhaust_of_none {State Notice : Type} {step : State → Option (State × List Notice)}
    {s : State} (h : step s = none) (fuel : Nat) : exhaust step fuel s = (s, []) := by
  cases fuel with
  | zero => rfl
  | succ fuel => simp [exhaust, h]

/-- Whether the next step of a call takes no time: it is not the one that reads a file. -/
def Guarded.isPrompt (g : Guarded) (call : Nat) : Bool :=
  !(g.method.readsFile && g.strategy.isPresenting call)

/-- How many steps the calls to a provider can still take. -/
def Guarded.stepsLeft (g : Guarded) : Nat := g.strategy.stepsLeft

/-- How many steps an errand can still take, with those of the call that it begins. -/
def Errand.Stage.stepsLeft : Errand.Stage → Nat
  | .begun => 12
  | .asking .. => 3
  | .sending _ => 2
  | .exchanging _ => 1
  | .finished _ => 0

/-- The steps of a login that a scheduler begins: its timer goes off, the call runs and is over. -/
def Renewal.stepsPerLogin : Nat := 10

/-- How many steps a worker can still take, with those of the calls that it begins, before its timer
is set for later. -/
def Renewal.Worker.stepsLeft (p : RenewalPolicy) (w : Renewal.Worker Nat) : Nat :=
  match w.wait with
  | .timer _ => (p.maxRetries.toNat - w.failures.toNat + 1) * Renewal.stepsPerLogin
  | .login _ => (p.maxRetries.toNat - w.failures.toNat) * Renewal.stepsPerLogin + 1

/-- How many steps the workers of a scheduler can still take. -/
def Renewal.Scheduler.stepsLeft (s : Renewal.Scheduler Nat) : Nat :=
  s.workers.foldl (fun n w => n + w.elim 0 (Renewal.Worker.stepsLeft s.policy)) 0

namespace Services

/-- How many steps the services can still take at one moment. -/
def stepsLeft (s : Services) : Nat :=
  s.tasks.foldl (fun n t => n + t.stage.stepsLeft) 0 +
    s.kubernetes.elim 0 Guarded.stepsLeft + s.renewal.elim 0 Guarded.stepsLeft +
      s.guests.foldl (fun n g => n + g.stepsLeft) 0 +
        s.schedulers.foldl (fun n entry => n + entry.2.stepsLeft) 0

/-- Whether an errand can take a step of its own. -/
def canProceed (s : Services) (t : Task) : Bool :=
  match t.stage with
  | .begun => true
  | .asking p call => (s.answer? p call).isSome
  | .sending _ => true
  | .exchanging _ => false
  | .finished _ => false

/-- The first errand that can take a step of its own. -/
def readyTask? (s : Services) : Option Event :=
  (s.tasks.findIdx? s.canProceed).map Event.proceed

/-- Every provider, the services' own first. -/
def exchangers (s : Services) : List Exchanger :=
  .kubernetes :: .renewal :: (List.range s.guests.length).map .guest

/-- The first call to a provider that can take a step of its own, among some of its calls. -/
def readyCall? (among : Guarded → Nat → Bool) (s : Services) (p : Exchanger) : Option Event :=
  (s.provider? p).bind fun g =>
    ((List.range g.strategy.calls.size).find? fun call =>
      among g call && g.strategy.isReady call).map (Event.advance p)

/-- The first call to a provider whose request has been replied to, with the reply. -/
def repliedCall? (reply? : Request → Option Reply) (s : Services) (p : Exchanger) : Option Event :=
  (s.provider? p).bind fun g =>
    (List.range g.strategy.calls.size).findSome? fun call =>
      ((g.strategy.pending? call).bind reply?).map (Event.deliver p call)

/-- The first errand whose request has been replied to, with the reply. -/
def repliedTask? (reply? : Request → Option Reply) (s : Services) : Option Event :=
  (List.range s.tasks.size).findSome? fun (i : Nat) =>
    match s.tasks[i]? with
    | some ⟨_, .exchanging request⟩ => (reply? request).map (Event.reply i)
    | _ => none

/-- The first scheduler whose renewal is over or whose timer is due. -/
def readyScheduler? (env : Surroundings) (s : Services) : Option Event :=
  (List.range s.schedulers.length).findSome? fun (k : Nat) =>
    match s.schedulers[k]? with
    | none => none
    | some (p, scheduler) =>
      if (s.settled? p scheduler).isSome then some (.settle k)
      else if (scheduler.dueBy? env.moment).isSome then some (.fire k)
      else none

/-- The first errand or call whose request has been replied to, with the reply. -/
def replied? (reply? : Request → Option Reply) (s : Services) : Option Event :=
  s.repliedTask? reply? <|> s.exchangers.findSome? (s.repliedCall? reply?)

/-- What happens next by itself. -/
def next? (network : Network) (env : Surroundings) (s : Services) : Option Event :=
  let any (_ : Guarded) (_ : Nat) : Bool := true
  s.readyTask? <|> s.exchangers.findSome? (s.readyCall? any)
    <|> s.readyScheduler? env <|> s.replied? fun request => some (network request)

/-- What happens next by itself without taking time. -/
def prompt? (network : Network) (s : Services) : Option Event :=
  s.readyTask? <|> s.exchangers.findSome? (s.readyCall? Guarded.isPrompt)
    <|> s.replied? network.losses

/-- What happens next by itself, if anything does, has happened. -/
def turn (network : Network) (env : Surroundings) (s : Services) :
    Option (Services × List Notice) :=
  (s.next? network env).map (s.step env)

/-- What happens next by itself without taking time, if anything does, has happened. -/
def promptTurn (network : Network) (env : Surroundings) (s : Services) :
    Option (Services × List Notice) :=
  (s.prompt? network).map (s.step env)

/-- Everything has happened that happens by itself. -/
def rest (network : Network) (env : Surroundings) (s : Services) : Services × List Notice :=
  exhaust (turn network env) s.stepsLeft s

/-- Everything has happened that happens by itself without taking time. -/
def promptRest (network : Network) (env : Surroundings) (s : Services) :
    Services × List Notice :=
  exhaust (promptTurn network env) s.stepsLeft s

end Services

namespace Startup

/-- Whether the startup can take a step of its own. -/
def canProceed (st : Startup) : Bool :=
  match st.stage with
  | .loggingIn call => (st.services.answer? .kubernetes call).isSome
  | .checking task => (st.services.outcome? task).isSome
  | .started => false
  | .failed _ => false

/-- What happens next by itself, if anything does, has happened; a startup that failed is over. -/
def turn (network : Network) (env : Surroundings) (st : Startup) :
    Option (Startup × List Services.Notice) :=
  match st.stage with
  | .failed _ => none
  | _ =>
    if st.canProceed then some (st.step env .proceed)
    else (st.services.next? network env).map fun e => st.step env (.services e)

/-- How many steps a startup can still take, with those of the schedulers that it starts. -/
def stepsLeft (st : Startup) : Nat :=
  let logins (p : RenewalPolicy) := (p.maxRetries.toNat + 1) * Renewal.stepsPerLogin
  st.services.stepsLeft + Errand.Stage.begun.stepsLeft + 2 +
    st.setup.kubernetes.elim 0 (fun k => logins k.renewal) +
    st.setup.token.elim 0 (fun t => logins t.renewal)

/-- Everything has happened that happens by itself. -/
def rest (network : Network) (env : Surroundings) (st : Startup) :
    Startup × List Services.Notice :=
  exhaust (turn network env) st.stepsLeft st

end Startup

/-- Services with the surroundings in which they are used. -/
structure Session where
  /-- The services. -/
  services : Services
  /-- The clocks and the files. -/
  surroundings : Surroundings

namespace Session

/-- One of several things that are begun together. -/
inductive Move where
  /-- An errand begins. -/
  | ask (errand : Errand)
  /-- Somebody looks at the session. -/
  | look

/-- What is left of a move once it has begun. -/
inductive Ticket where
  /-- The number of an errand. -/
  | task (i : Nat)
  /-- The session as it was seen. -/
  | seen (view : Session)

/-- What comes of a move. -/
inductive Finding where
  /-- The outcome of an errand; there is none of an errand that does not end. -/
  | outcome (outcome : Option Errand.Outcome)
  /-- The session as it was seen. -/
  | seen (view : Session)

/-- Everything has happened that happens by itself. -/
def rest (network : Network) (s : Session) : Session × List Services.Notice :=
  let (services, notices) := s.services.rest network s.surroundings
  ({ s with services }, notices)

/-- Some events happen, in order, and then everything that happens by itself. -/
def perform (network : Network) (s : Session) (events : List Services.Event) :
    Session × List Services.Notice :=
  let (services, notices) := s.services.run (events.map fun e => (s.surroundings, e))
  let (s, more) := rest network { s with services }
  (s, notices ++ more)

/-- An errand begins and goes on for as long as that takes no time. -/
def beginOne (network : Network) (s : Session) (errand : Errand) :
    Session × List Services.Notice :=
  let (services, first) := s.services.step s.surroundings (.ask errand)
  let (services, more) := services.promptRest network s.surroundings
  ({ s with services }, first ++ more)

/-- Some moves begin, in order. -/
def begin (network : Network) (s : Session) :
    List Move → Session × List Ticket × List Services.Notice
  | [] => (s, [], [])
  | .look :: moves =>
    let (last, tickets, notices) := begin network s moves
    (last, .seen s :: tickets, notices)
  | .ask errand :: moves =>
    let (next, first) := s.beginOne network errand
    let (last, tickets, more) := begin network next moves
    (last, .task s.services.tasks.size :: tickets, first ++ more)

/-- What has come of a move that has begun. -/
def find (s : Session) : Ticket → Finding
  | .task i => .outcome (s.services.outcome? i)
  | .seen view => .seen view

/-- Some moves begin together and run to their ends. -/
def together (network : Network) (s : Session) (moves : List Move) :
    Session × List Finding × List Services.Notice :=
  let (s, tickets, first) := s.begin network moves
  let (s, more) := s.rest network
  (s, tickets.map s.find, first ++ more)

/-- An errand runs to its end; without an end it has no outcome. -/
def ask (network : Network) (s : Session) (errand : Errand) :
    Session × Option Errand.Outcome × List Services.Notice :=
  let (next, notices) := s.perform network [.ask errand]
  (next, next.services.outcome? s.services.tasks.size, notices)

/-- The timer clock jumps ahead by so many nanoseconds, and everything happens that is due then. -/
def skip (network : Network) (s : Session) (nanos : Nat) : Session × List Services.Notice :=
  rest network
    { s with surroundings := { s.surroundings with moment := s.surroundings.moment + nanos } }

/-- The session with another time on the calendar clock. -/
def atTime (s : Session) (now : Timestamp) : Session :=
  { s with surroundings := { s.surroundings with now } }

/-- The session with other files. -/
def withFiles (s : Session) (files : FileTree) : Session :=
  { s with surroundings := { s.surroundings with files } }

/-- Services start up in some surroundings; what they let know is told also if they fail. -/
def start (network : Network) (setup : Setup) (reports : Bool) (env : Surroundings) :
    Except Failure Session × List Services.Notice :=
  match Startup.begin setup reports env with
  | .error f => (.error f, [])
  | .ok st =>
    let (st, notices) := st.rest network env
    match st.stage with
    | .failed f => (.error f, notices)
    | _ => (.ok ⟨st.services, env⟩, notices)

end Session

end VaultTokens
