import VaultTokens.Renewal.Scheduler
import VaultTokens.Services.Errand

/-!
# The services

The secret client, the registry, the providers and the schedulers of a process, with every errand
that callers have begun. All of them move one step at a time and in any order: an errand proceeds, a
call to a provider proceeds, a reply arrives, a timer goes off, a renewal ends, or somebody starts
or stops a scheduler. A step that is not possible changes nothing.

The client holds no token. For every operation on a secret it looks up the configured strategy anew
and asks for the token of the moment. A scheduler calls its provider like anybody else; when it is
stopped during a call, the call is given up.

Main statements: `schedulers_within` (a provider's step leaves the schedulers alone) and
`isRunning_shutdown` (after a shutdown no scheduler is running).
-/

namespace VaultTokens

/-- A provider: a method of exchange and what its calls have come to. -/
structure Guarded where
  /-- How it exchanges. -/
  method : Method
  /-- Its calls and its standing. -/
  strategy : Authenticator

/-- An errand on its way. -/
structure Task where
  /-- What is wanted. -/
  errand : Errand
  /-- How far it has come. -/
  stage : Errand.Stage

/-- The services of a process. -/
structure Services where
  /-- The settings of the secret client. -/
  settings : VaultSettings
  /-- The strategies by name. -/
  registry : Registry
  /-- The provider that logs in with a service account. -/
  kubernetes : Option Guarded
  /-- The provider that renews its token in place. -/
  renewal : Option Guarded
  /-- The providers that callers have set up besides. -/
  guests : List Guarded
  /-- The schedulers, each with the provider it renews; a login is a call to it. -/
  schedulers : List (Exchanger × Renewal.Scheduler Nat)
  /-- The errands, in the order they began. -/
  tasks : Array Task

namespace Services

/-- What can happen to the services. -/
inductive Event where
  /-- A caller begins an errand. -/
  | ask (errand : Errand)
  /-- An errand takes its next step. -/
  | proceed (task : Nat)
  /-- The reply to the request of an errand arrives. -/
  | reply (task : Nat) (reply : Reply)
  /-- A call to a provider takes its next step. -/
  | advance (provider : Exchanger) (call : Nat)
  /-- The reply to the request of a call to a provider arrives. -/
  | deliver (provider : Exchanger) (call : Nat) (reply : Reply)
  /-- The timer of a scheduler goes off. -/
  | fire (scheduler : Nat)
  /-- The renewal that a scheduler has under way is over. -/
  | settle (scheduler : Nat)
  /-- A scheduler is started. -/
  | start (scheduler : Nat)
  /-- A scheduler is started for a token that was just issued. -/
  | startFrom (scheduler : Nat) (lease : Option UInt64)
  /-- A scheduler is stopped. -/
  | stop (scheduler : Nat)
  /-- Every scheduler is stopped. -/
  | shutdown
  /-- A strategy is registered. -/
  | register (name : String) (strategy : Strategy)

/-- What a step lets others know. -/
inductive Notice where
  /-- An errand has asked a strategy. -/
  | asked (task : Nat) (strategy : Strategy) (demand : Authenticator.Demand)
  /-- An errand has sent a request. -/
  | sent (task : Nat) (request : Request)
  /-- An errand is over. -/
  | finished (task : Nat) (outcome : Errand.Outcome)
  /-- A provider lets something know. -/
  | within (provider : Exchanger) (notice : Authenticator.Notice)
  /-- A scheduler has reported a failure. -/
  | reported (provider : Exchanger) (failure : Failure)

/-- The request that a notice is about. -/
def Notice.request? : Notice → Option Request
  | .sent _ request => some request
  | .within _ (.sent _ request) => some request
  | _ => none

/-- The reported failure that a notice is about. -/
def Notice.failure? : Notice → Option Failure
  | .reported _ failure => some failure
  | _ => none

/-- Services without errands or schedulers, and with the fallback strategy alone. -/
def initial (settings : VaultSettings) : Services where
  settings := settings
  registry := .initial (settings.fallbackToken.getD "")
  kubernetes := none
  renewal := none
  guests := []
  schedulers := []
  tasks := #[]

/-- A provider. -/
def provider? (s : Services) : Exchanger → Option Guarded
  | .kubernetes => s.kubernetes
  | .renewal => s.renewal
  | .guest n => s.guests[n]?

/-- The services with a provider in place of the one that was there. -/
def setProvider (s : Services) (p : Exchanger) (g : Guarded) : Services :=
  match p with
  | .kubernetes => { s with kubernetes := some g }
  | .renewal => { s with renewal := some g }
  | .guest n => { s with guests := s.guests.set n g }

/-- The services with a provider that is registered under its own name. -/
def provide (s : Services) (p : Provider) (method : Method) : Services :=
  { s.setProvider p ⟨method, .initial⟩ with
    registry := s.registry.register p.method (.provided p) }

/-- Something happens to a provider. -/
def within (env : Surroundings) (s : Services) (p : Exchanger) (e : Authenticator.Event) :
    Services × List Notice :=
  match s.provider? p with
  | none => (s, [])
  | some g =>
    let (strategy, notices) := g.strategy.step g.method env e
    (s.setProvider p { g with strategy }, notices.map (Notice.within p))

/-- The number of the next call to a provider. -/
def nextCall? (s : Services) (p : Exchanger) : Option Nat :=
  (s.provider? p).map fun g => g.strategy.calls.size

/-- The answer to a call to a provider, once it is over. -/
def answer? (s : Services) (p : Exchanger) (call : Nat) : Option Authenticator.Answer :=
  (s.provider? p).bind fun g => g.strategy.answer? call

/-! ## Errands -/

/-- The services with an errand at another stage. -/
def enter (s : Services) (i : Nat) (stage : Errand.Stage) : Services :=
  { s with tasks := s.tasks.modify i fun t => { t with stage } }

/-- The services with an errand that is over. -/
def finish (s : Services) (i : Nat) (outcome : Errand.Outcome) : Services × List Notice :=
  (s.enter i (.finished outcome), [.finished i outcome])

/-- The services with an errand behind the answer that it waited for. -/
def resume (s : Services) (i : Nat) (e : Errand) (answer : Authenticator.Answer) :
    Services × List Notice :=
  match e.answered? answer with
  | none => (s, [])
  | some (.finished outcome) => s.finish i outcome
  | some stage => (s.enter i stage, [])

/-- An errand sends its request, or is over if there is none. -/
def dispatch (s : Services) (i : Nat) (e : Errand) (token : String) : Services × List Notice :=
  match e.request? s.settings token with
  | none => (s, [])
  | some (.ok request) => (s.enter i (.exchanging request), [.sent i request])
  | some (.error f) => s.finish i (e.failed f)

/-- An errand asks the strategy under a name. -/
def consult (env : Surroundings) (s : Services) (i : Nat) (e : Errand) (name : String)
    (demand : Authenticator.Demand) : Services × List Notice :=
  match s.registry.resolve name with
  | .error f => s.finish i (e.failed f)
  | .ok (.fixed token) =>
    let (s, notices) := s.resume i e (Errand.fixedAnswer token demand)
    (s, .asked i (.fixed token) demand :: notices)
  | .ok (.provided p) =>
    match s.nextCall? p with
    | none => s.finish i (e.failed (Registry.unknown name))
    | some call =>
      let (s, notices) := s.within env p (.begin demand)
      (s.enter i (.asking p call), .asked i (.provided p) demand :: notices)

/-- An errand takes its next step. -/
def proceed (env : Surroundings) (s : Services) (i : Nat) : Services × List Notice :=
  match s.tasks[i]? with
  | none => (s, [])
  | some ⟨e, .begun⟩ =>
    match e.demand? s.settings.method with
    | some (name, demand) => s.consult env i e name demand
    | none => s.dispatch i e ""
  | some ⟨e, .asking p call⟩ =>
    match s.answer? p call with
    | none => (s, [])
    | some answer => s.resume i e answer
  | some ⟨e, .sending token⟩ => s.dispatch i e token
  | some ⟨_, .exchanging _⟩ => (s, [])
  | some ⟨_, .finished _⟩ => (s, [])

/-- The reply to the request of an errand arrives. -/
def receive (s : Services) (i : Nat) (reply : Reply) : Services × List Notice :=
  match s.tasks[i]? with
  | some ⟨e, .exchanging request⟩ =>
    match e.conclude? request reply with
    | none => (s, [])
    | some outcome => s.finish i outcome
  | _ => (s, [])

/-! ## Schedulers -/

/-- The services with a scheduler in place of the one that was there. -/
def setScheduler (s : Services) (k : Nat) (scheduler : Renewal.Scheduler Nat) : Services :=
  { s with schedulers := s.schedulers.modify k fun entry => (entry.1, scheduler) }

/-- The timer of a scheduler's worker goes off, if one is due: a login begins. -/
def fire (env : Surroundings) (s : Services) (k : Nat) : Services × List Notice :=
  match s.schedulers[k]? with
  | none => (s, [])
  | some (p, scheduler) =>
    match scheduler.dueBy? env.moment, s.nextCall? p with
    | some worker, some call =>
      let (s, notices) := s.within env p (.begin .login)
      (s.setScheduler k (scheduler.loginBegun worker call), notices)
    | _, _ => (s, [])

/-- The first login of a scheduler's workers that is over, with its answer. -/
def settled? (s : Services) (p : Exchanger) (scheduler : Renewal.Scheduler Nat) :
    Option (Nat × Authenticator.Answer) :=
  scheduler.underWay.findSome? fun (worker, call) => (s.answer? p call).map (worker, ·)

/-- The login that a scheduler's worker has under way is over. -/
def settle (env : Surroundings) (s : Services) (k : Nat) : Services × List Notice :=
  match s.schedulers[k]? with
  | none => (s, [])
  | some (p, scheduler) =>
    match s.settled? p scheduler with
    | some (worker, .issued result) =>
      let (scheduler, failure) :=
        scheduler.loginEnded worker env.moment (result.map Issued.lease)
      (s.setScheduler k scheduler, (failure.map (Notice.reported p)).toList)
    | _ => (s, [])

/-- Something is done with a scheduler, and the call that it thereby gives back is given up. -/
def command (env : Surroundings) (s : Services) (k : Nat)
    (f : Renewal.Scheduler Nat → Renewal.Scheduler Nat × Option Nat) : Services :=
  match s.schedulers[k]? with
  | none => s
  | some (p, scheduler) =>
    match f scheduler with
    | (scheduler, none) => s.setScheduler k scheduler
    | (scheduler, some call) => ((s.within env p (.cancel call)).1).setScheduler k scheduler

/-- A scheduler is stopped. -/
def stop (env : Surroundings) (s : Services) (k : Nat) : Services :=
  s.command env k Renewal.Scheduler.stop

/-- Every scheduler is stopped, the first one first. -/
def shutdown (env : Surroundings) (s : Services) : Services :=
  (List.range s.schedulers.length).foldl (stop env) s

/-- The services after an event, and what the event lets others know. -/
def step (env : Surroundings) (s : Services) : Event → Services × List Notice
  | .ask errand => ({ s with tasks := s.tasks.push ⟨errand, .begun⟩ }, [])
  | .proceed i => s.proceed env i
  | .reply i reply => s.receive i reply
  | .advance p call => s.within env p (.advance call)
  | .deliver p call reply => s.within env p (.reply call reply)
  | .fire k => s.fire env k
  | .settle k => s.settle env k
  | .start k => (s.command env k fun scheduler => scheduler.start env.moment, [])
  | .startFrom k lease =>
    (s.command env k fun scheduler => scheduler.startFrom env.moment lease, [])
  | .stop k => (s.stop env k, [])
  | .shutdown => (s.shutdown env, [])
  | .register name strategy => ({ s with registry := s.registry.register name strategy }, [])

/-- The services after some events, each in surroundings of its own, and all notices in order. -/
def run (s : Services) : List (Surroundings × Event) → Services × List Notice
  | [] => (s, [])
  | (env, e) :: rest =>
    let (s, notices) := s.step env e
    let (s, more) := run s rest
    (s, notices ++ more)

/-- The outcome of an errand that is over. -/
def outcome? (s : Services) (i : Nat) : Option Errand.Outcome :=
  match s.tasks[i]? with
  | some ⟨_, .finished outcome⟩ => some outcome
  | _ => none

/-- Whether each scheduler is running, in order. -/
def running (s : Services) : List Bool := s.schedulers.map fun entry => entry.2.isRunning

/-! ## What steps leave alone -/

@[simp]
theorem schedulers_setProvider (s : Services) (p : Exchanger) (g : Guarded) :
    (s.setProvider p g).schedulers = s.schedulers := by
  rcases p with (_ | _) | _ <;> rfl

@[simp]
theorem settings_setProvider (s : Services) (p : Exchanger) (g : Guarded) :
    (s.setProvider p g).settings = s.settings := by
  rcases p with (_ | _) | _ <;> rfl

@[simp]
theorem tasks_setProvider (s : Services) (p : Exchanger) (g : Guarded) :
    (s.setProvider p g).tasks = s.tasks := by
  rcases p with (_ | _) | _ <;> rfl

theorem provider?_setProvider_self {s : Services} {p : Exchanger} {old : Guarded}
    (h : s.provider? p = some old) (g : Guarded) : (s.setProvider p g).provider? p = some g := by
  rcases p with (_ | _) | n
  · rfl
  · rfl
  · exact List.getElem?_set_self (List.getElem?_eq_some_iff.mp h).1

theorem provider?_setProvider_of_ne (s : Services) {p q : Exchanger} (g : Guarded) (h : q ≠ p) :
    (s.setProvider p g).provider? q = s.provider? q := by
  rcases p with (_ | _) | n <;> rcases q with (_ | _) | m <;> first | rfl | exact absurd rfl h | skip
  exact List.getElem?_set_ne fun hnm => h (congrArg Exchanger.guest hnm.symm)

/-- What happens to a provider leaves the schedulers alone. -/
@[simp]
theorem schedulers_within (env : Surroundings) (s : Services) (p : Exchanger)
    (e : Authenticator.Event) : (s.within env p e).1.schedulers = s.schedulers := by
  rw [within]
  split <;> simp

/-- Something that is done with a scheduler changes that one as it says, and no other. -/
theorem schedulers_command (env : Surroundings) (s : Services) (k : Nat)
    (f : Renewal.Scheduler Nat → Renewal.Scheduler Nat × Option Nat) :
    (s.command env k f).schedulers
      = s.schedulers.modify k fun entry => (entry.1, (f entry.2).1) := by
  rw [command]
  split
  · rename_i hk
    rw [List.modify_eq_self (by simpa using hk)]
  · rename_i p scheduler hk
    have hset : ∀ t : Services, t.schedulers = s.schedulers → ∀ next,
        (f scheduler).1 = next → (t.setScheduler k next).schedulers
          = s.schedulers.modify k fun entry => (entry.1, (f entry.2).1) := by
      intro t ht next hnext
      simp only [setScheduler, ht]
      apply List.ext_getElem?
      intro j
      simp only [List.getElem?_modify]
      by_cases hj : k = j
      · subst hj
        simp [hk, hnext]
      · simp [hj]
    split
    · rename_i hf
      exact hset s rfl _ (by rw [hf])
    · rename_i hf
      exact hset _ (schedulers_within ..) _ (by rw [hf])

/-- After a shutdown no scheduler is running. -/
theorem isRunning_shutdown (env : Surroundings) (s : Services) :
    ∀ running ∈ (s.shutdown env).running, running = false := by
  have key : ∀ (ks : List Nat) (t : Services),
      (∀ (k : Nat) (entry : Exchanger × Renewal.Scheduler Nat), t.schedulers[k]? = some entry →
        k ∈ ks ∨ entry.2.isRunning = false) →
      ∀ (k : Nat) (entry : Exchanger × Renewal.Scheduler Nat),
        (ks.foldl (stop env) t).schedulers[k]? = some entry → entry.2.isRunning = false := by
    intro ks
    induction ks with
    | nil =>
      intro t ht k entry hk
      simpa using ht k entry hk
    | cons j ks ih =>
      intro t ht
      refine ih (t.stop env j) ?_
      intro k entry hk
      rw [stop, schedulers_command, List.getElem?_modify] at hk
      by_cases hjk : j = k
      · subst hjk
        right
        cases hentry : t.schedulers[j]? with
        | none => simp [hentry] at hk
        | some old =>
          simp only [hentry, if_true, Option.map_eq_map, Option.map_some, Option.some.injEq] at hk
          rw [← hk]
          exact Renewal.Scheduler.isRunning_stop _
      · simp only [hjk, if_false, Option.map_eq_map, Option.map_id'] at hk
        rcases ht k entry hk with hmem | hidle
        · rcases List.mem_cons.1 hmem with rfl | hmem
          · exact absurd rfl hjk
          · exact Or.inl hmem
        · exact Or.inr hidle
  intro running hrunning
  simp only [Services.running, List.mem_map] at hrunning
  obtain ⟨entry, hentry, rfl⟩ := hrunning
  obtain ⟨k, hk⟩ := List.getElem?_of_mem hentry
  refine key (List.range s.schedulers.length) s ?_ k entry hk
  intro k entry hk
  left
  simp only [List.mem_range]
  exact (List.getElem?_eq_some_iff.1 hk).1

end Services

end VaultTokens
