import VaultTokens.Services.Basic
import VaultTokens.Settings.Setup

/-!
# Startup

The services of a setup come up in a fixed order. The providers are registered, the configured
strategy is looked up, and the Kubernetes provider logs in for the first time. Only then are there
schedulers: one for each provider whose policy is enabled, the Kubernetes one timed from that first
token and the other one starting at once. At last health is checked, if that is wanted, and whatever
comes of it the services are up.

Everything that can fail lies before the first scheduler, so that a startup that fails leaves
nothing behind that goes on by itself.
-/

namespace VaultTokens

/-- How far a startup has come. -/
inductive Startup.Stage where
  /-- The first login is under way. -/
  | loggingIn (call : Nat)
  /-- Health is checked. -/
  | checking (task : Nat)
  /-- The services are up. -/
  | started
  /-- The first login has failed. -/
  | failed (failure : Failure)

/-- Services that are coming up. -/
structure Startup where
  /-- The setup. -/
  setup : Setup
  /-- Whether renewals that fail are reported. -/
  reports : Bool
  /-- The services. -/
  services : Services
  /-- How far the startup has come. -/
  stage : Startup.Stage

namespace Startup

/-- What can happen during a startup. -/
inductive Event where
  /-- Something happens to the services. -/
  | services (event : Services.Event)
  /-- The startup itself takes its next step. -/
  | proceed

/-- The services of a setup with their providers, unless there is no service account token. -/
def wired (setup : Setup) (files : FileTree) : Except Failure Services :=
  let services := Services.initial setup.vault
  let services := setup.token.elim services fun t => services.provide .renewal (.ofToken t)
  match setup.kubernetes with
  | none => .ok services
  | some k =>
    match Method.ofKubernetes k files with
    | .error f => .error f
    | .ok method => .ok (services.provide .kubernetes method)

/-- A scheduler for a provider, if its policy is enabled. -/
def scheduler? (p : Exchanger) (policy : RenewalPolicy) (reports : Bool)
    (launch : Renewal.Scheduler Nat → Renewal.Scheduler Nat) :
    Option (Exchanger × Renewal.Scheduler Nat) :=
  if policy.enabled then some (p, launch (.idle policy reports)) else none

/-- The schedulers of a setup whose first login has issued a token. -/
def schedulers (setup : Setup) (reports : Bool) (moment : Nat) (issued : Option Issued) :
    List (Exchanger × Renewal.Scheduler Nat) :=
  let kubernetes :=
    match setup.kubernetes, issued with
    | some k, some issued =>
      scheduler? .kubernetes k.renewal reports fun s => (s.startFrom moment issued.lease).1
    | _, _ => none
  let renewal := setup.token.bind fun t =>
    scheduler? .renewal t.renewal reports fun s => (s.start moment).1
  kubernetes.toList ++ renewal.toList

/-- The first login is done, or there is none: the schedulers start and health is checked. -/
def launch (env : Surroundings) (st : Startup) (issued : Option Issued) : Startup :=
  let services :=
    { st.services with schedulers := schedulers st.setup st.reports env.moment issued }
  if st.setup.vault.healthCheck then
    { st with
      services := (services.step env (.ask .health)).1
      stage := .checking services.tasks.size }
  else { st with services := services, stage := .started }

/-- A startup begins, unless the setup cannot work. -/
def begin (setup : Setup) (reports : Bool) (env : Surroundings) : Except Failure Startup :=
  match wired setup env.files with
  | .error f => .error f
  | .ok services =>
    match services.registry.resolve setup.vault.method with
    | .error f => .error f
    | .ok _ =>
      match services.nextCall? .kubernetes with
      | none => .ok (launch env ⟨setup, reports, services, .started⟩ none)
      | some call =>
        .ok ⟨setup, reports, (services.within env .kubernetes (.begin .login)).1, .loggingIn call⟩

/-- The failure of a startup whose first login fails. -/
def loginFailed (f : Failure) : Failure :=
  .authentication ("Initial Kubernetes login failed: " ++ f.message)

/-- The startup takes its next step, if what it waits for is over. -/
def proceed (env : Surroundings) (st : Startup) : Startup :=
  match st.stage with
  | .loggingIn call =>
    match st.services.answer? .kubernetes call with
    | some (.issued (.ok issued)) => st.launch env (some issued)
    | some (.issued (.error f)) => { st with stage := .failed (loginFailed f) }
    | _ => st
  | .checking task =>
    match st.services.outcome? task with
    | some _ => { st with stage := .started }
    | none => st
  | .started => st
  | .failed _ => st

/-- The startup after an event, and what the event lets others know. -/
def step (env : Surroundings) (st : Startup) : Event → Startup × List Services.Notice
  | .services e =>
    let (services, notices) := st.services.step env e
    ({ st with services }, notices)
  | .proceed => (st.proceed env, [])

/-- The startup after some events, each in surroundings of its own, and all notices in order. -/
def run (st : Startup) : List (Surroundings × Event) → Startup × List Services.Notice
  | [] => (st, [])
  | (env, e) :: rest =>
    let (st, notices) := st.step env e
    let (st, more) := run st rest
    (st, notices ++ more)

end Startup

end VaultTokens
