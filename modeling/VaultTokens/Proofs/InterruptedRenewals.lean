import VaultTokens.Proofs.OmittedCalls
import VaultTokens.Proofs.StartedServices

/-!
# Renewals that are interrupted

When every scheduler is stopped, the renewals that are under way are given up, wherever they are: in
the line, with the guard, or while they wait for a reply. A provider has one scheduler at most, so
one call to it at most is given up, and that is all that happens to it. The call leaves the line and
is not heard of again, an exchange that it had not recorded is not recorded any more, and to all
other calls it is as if that one had never begun (`GivenUp`). The errands, the settings and the
registrations stay, and errands come to their ends as ever. Nothing is sent but for errands, until
somebody starts a scheduler again (`ShutDown`).

## Main results

* `givenUp` — what becomes of a login that is given up
* `Idle.run` — a scheduler that is not running does not run until somebody starts it
* `Attended.attends_of_sent` — whatever is sent is sent for somebody who waits for it
* `exists_interrupted` — what becomes of a provider
* `interrupted_renewals` — what becomes of services when every scheduler is stopped
-/

namespace VaultTokens

/-! ### Logins that are given up -/

namespace Authenticator

variable {m : Method} {env : Surroundings} {a b : Authenticator} {e : Event} {new : List Notice}
  {i : Nat} {own : List (Surroundings × Event)}

/-- Who sends a request has the guard. -/
theorem Change.presenting_of_sent (hchange : Change m env a e b new) {r : Request}
    (h : .sent i r ∈ new) : ∃ d, a.calls[i]? = some ⟨d, .presenting⟩ := by
  cases hchange with
  | sends hc =>
    cases List.mem_singleton.mp h
    exact ⟨_, hc⟩
  | nothing | begins | looks | passes | joins | turns | yields => cases h
  | serves | enters | lacks | hears | records | leaves | reads => cases List.mem_singleton.mp h

/-- What becomes of a login that is given up, after all that has happened to its provider. -/
structure GivenUp (m : Method) (own : List (Surroundings × Event)) (env : Surroundings)
    (i : Nat) : Prop where
  /-- If its exchange was under way or still to come, the login has recorded neither a success nor a
  failure. -/
  unrecorded : ∃ phase, (initial.run m own).1.calls[i]? = some ⟨.login, phase⟩ ∧
    (phase.isUnrecorded = true → ∀ time o, (i, time, o) ∉ recordings (initial.run m own).2)
  /-- If it has recorded nothing, all the others go on as if it had never begun. -/
  untraced : (∀ time o, (i, time, o) ∉ recordings (initial.run m own).2) →
    LeavesNoTrace m own env i
  /-- From then on it never stands in line. -/
  line : ∀ rest, i ∉ (initial.run m (own ++ (env, .cancel i) :: rest)).1.line
  /-- Nothing more is heard of it. -/
  silent : ∀ rest, ∃ more, (initial.run m (own ++ (env, .cancel i) :: rest)).2
    = (initial.run m own).2 ++ more ∧ ∀ n ∈ more, n.call ≠ i

/-- **What becomes of a login that is given up.** -/
theorem givenUp {phase : Phase} (hc : (initial.run m own).1.calls[i]? = some ⟨.login, phase⟩)
    (env : Surroundings) : GivenUp m own env i := by
  obtain ⟨c, hcancelled, hover⟩ := isOver_cancel hc
  have hrun : ∀ rest, initial.run m (own ++ (env, .cancel i) :: rest)
      = ((((initial.run m own).1.cancel i).run m rest).1,
          (initial.run m own).2 ++ (((initial.run m own).1.cancel i).run m rest).2) := by
    intro rest
    rw [run_append, run_cons]
    rfl
  refine ⟨⟨phase, hc, fun hphase time o hmem => ?_⟩,
    fun hnone => leavesNoTrace m (Array.getElem?_eq_some_iff.mp hc).1 hnone env, fun rest => ?_,
    fun rest => ?_⟩
  · obtain ⟨c', hc', hrecorded⟩ := recorded_run m own _ hmem
    obtain rfl := Option.some.inj (hc.symm.trans hc')
    cases hphase.symm.trans hrecorded
  · have horderly := orderly_run orderly_initial m (own ++ (env, .cancel i) :: rest)
    rw [hrun] at horderly ⊢
    obtain ⟨⟨c', hc', hover'⟩, -⟩ := over_run hcancelled hover m rest
    exact horderly.not_mem_of_isOver hc' hover'
  · rw [hrun]
    exact ⟨_, rfl, (over_run hcancelled hover m rest).2⟩

end Authenticator

namespace Services

variable {s : Services} {env : Surroundings} {e : Event} {p : Exchanger} {k call : Nat}
  {past : List Notice}

/-! ### Schedulers that are not running -/

/-- Whether an event starts a scheduler. -/
def Event.starts (k : Nat) : Event → Bool
  | .start j | .startFrom j _ => j == k
  | _ => false

/-- The scheduler in a place is not running. -/
def Idle (s : Services) (k : Nat) : Prop := ∀ (p : Exchanger) (a : Renewal.Scheduler Nat),
  s.schedulers[k]? = some (p, a) → a.isRunning = false

/-- Only who starts a scheduler makes it run. -/
theorem Idle.step (h : Idle s k) (hsingle : Single s) (he : e.starts k = false)
    (env : Surroundings) : Idle (s.step env e).1 k := by
  intro p a hk
  obtain ⟨old, hold, hmoved⟩ := exists_moved env s e hk
  have hidle := h p old hold
  have hsole := hsingle k p old hold
  cases hmoved with
  | stays => exact hidle
  | begins hdue =>
    obtain ⟨w, hw, -⟩ := Renewal.Scheduler.worker?_of_dueBy? hdue
    cases hidle.symm.trans ((Renewal.Scheduler.isRunning_iff hsole).mpr ⟨_, w, hw⟩)
  | ends hsettled =>
    obtain ⟨call, hflight, -⟩ := answer?_of_settled? hsole hsettled
    have hholds := (Renewal.Scheduler.flight?_eq_some_iff hsole).mp hflight
    cases hidle.symm.trans (Renewal.Scheduler.isRunning_of_holds hsole hholds)
  | starts | startsFrom => cases (beq_self_eq_true k).symm.trans he
  | stops => exact Renewal.Scheduler.isRunning_stop _

/-- **A scheduler that is not running does not run until somebody starts it.** -/
theorem Idle.run (h : Idle s k) (hsingle : Single s) {later : List (Surroundings × Event)}
    (hlater : ∀ x ∈ later, x.2.starts k = false) : Idle (s.run later).1 k := by
  induction later generalizing s with
  | nil => exact h
  | cons x rest ih =>
    exact ih (h.step hsingle (hlater x List.mem_cons_self) x.1) (hsingle.step x.1 x.2)
      fun y hy => hlater y (List.mem_cons_of_mem _ hy)

theorem idle_shutdown (env : Surroundings) (s : Services) (k : Nat) :
    Idle (s.step env .shutdown).1 k := by
  intro p a hk
  exact isRunning_shutdown env s _ (List.mem_map_of_mem (List.mem_of_getElem? hk))

/-- **Whatever is sent is sent for an errand or a scheduler that waits for it.** -/
theorem Attended.attends_of_sent (h : Attended s) {r : Request}
    (hsent : .within p (.sent call r) ∈ (s.step env e).2) : s.Awaits p call ∨ s.Renews p call := by
  obtain ⟨own, htraces, hbrought⟩ := brings_step env s e p
  have hmem := mem_innards hsent
  rw [htraces.notices] at hmem
  cases hg : s.provider? p with
  | none =>
    rw [hg] at hmem
    cases hmem
  | some g =>
    rw [hg, Option.elim_some] at hmem
    obtain ⟨d, hc⟩ : ∃ d, g.strategy.calls[call]? = some ⟨d, .presenting⟩ := by
      rcases hbrought.cases with ⟨e', rfl, -⟩ | hcancels
      · rw [Authenticator.run_cons, Authenticator.run, List.append_nil] at hmem
        exact (Authenticator.change_step g.method env g.strategy e').presenting_of_sent hmem
      · rw [(Authenticator.run_of_cancels hcancels g.method g.strategy).1] at hmem
        cases hmem
    exact h.attends p g call _ hg hc rfl

/-! ### What becomes of a provider -/

/-- Where one place alone has something to give, that is all there is to collect. -/
theorem filterMap_of_sole {f : Nat → Option Nat} {ks : List Nat} (hks : ks.Nodup) (hk : k ∈ ks)
    (hf : f k = some call) (hother : ∀ j, j ≠ k → f j = none) : ks.filterMap f = [call] := by
  induction ks with
  | nil => cases hk
  | cons j ks ih =>
    obtain ⟨hj, hks⟩ := List.nodup_cons.mp hks
    by_cases hjk : j = k
    · subst hjk
      have hrest : ks.filterMap f = [] := List.filterMap_eq_nil_iff.mpr fun i hi =>
        hother i fun hij => hj (hij ▸ hi)
      rw [List.filterMap_cons, hf, hrest]
    · rw [List.filterMap_cons, hother j hjk]
      exact ih hks ((List.mem_cons.mp hk).resolve_left (Ne.symm hjk))

/-- What a shutdown brings to a provider with one scheduler at most: the call is given up that the
scheduler waits for. -/
theorem exists_given (env : Surroundings)
    (hsole : ∀ (j k : Nat) a b, s.schedulers[j]? = some (p, a) → s.schedulers[k]? = some (p, b) →
      j = k) :
    ∃ call?, (∀ call, call? = some call ↔ ∃ k, s.flight? p k = some call) ∧
      Traces p (cancels env call?.toList) s (s.step env .shutdown).1 [] := by
  have htraces := traces_stops env s p (List.nodup_range (n := s.schedulers.length))
  by_cases hflight : ∃ k call, s.flight? p k = some call
  · obtain ⟨k, call, hk⟩ := hflight
    obtain ⟨a, hscheduler, -⟩ := flight?_eq_some.mp hk
    have hother : ∀ j, j ≠ k → s.flight? p j = none := by
      intro j hjk
      rw [Option.eq_none_iff_forall_ne_some]
      intro call' hj
      obtain ⟨b, hb, -⟩ := flight?_eq_some.mp hj
      exact hjk (hsole j k b a hb hscheduler)
    have hlt := List.mem_range.mpr (List.getElem?_eq_some_iff.mp hscheduler).1
    rw [filterMap_of_sole List.nodup_range hlt hk hother] at htraces
    refine ⟨some call, fun call' => ⟨?_, ?_⟩, htraces⟩
    · rintro ⟨⟩
      exact ⟨k, hk⟩
    · rintro ⟨j, hj⟩
      by_cases hjk : j = k
      · subst hjk
        exact hk.symm.trans hj
      · cases (hother j hjk).symm.trans hj
  · have hnone : ∀ k, s.flight? p k = none := by
      intro k
      rw [Option.eq_none_iff_forall_ne_some]
      exact fun call hk => hflight ⟨k, call, hk⟩
    rw [List.filterMap_eq_nil_iff.mpr fun k _ => hnone k] at htraces
    refine ⟨none, fun call => ⟨fun h => (by cases h), ?_⟩, htraces⟩
    rintro ⟨k, hk⟩
    cases (hnone k).symm.trans hk

/-- What becomes of a provider when every scheduler is stopped: `own` is what has happened to it
since its first call, and `call?` is the call that its scheduler waits for, if it does. -/
structure Interrupted (s : Services) (past : List Notice) (env : Surroundings) (p : Exchanger)
    (m : Method) (own : List (Surroundings × Authenticator.Event)) (call? : Option Nat) :
    Prop where
  /-- What has happened to it, and what it has let known. -/
  before : History s past p m own
  /-- The call is the one that its scheduler waits for. -/
  renews : ∀ call, call? = some call ↔ s.Renews p call
  /-- No errand waits for the call. -/
  apart : ∀ call, call? = some call → ¬s.Awaits p call
  /-- The call is given up, and that is all that happens to the provider. -/
  after : History (s.step env .shutdown).1 past p m (own ++ cancels env call?.toList)
  /-- From then on the provider goes on by itself. -/
  later : ∀ later, ∃ rest, History ((s.step env .shutdown).1.run later).1
    (past ++ ((s.step env .shutdown).1.run later).2) p m
    (own ++ (cancels env call?.toList ++ rest))
  /-- Its standing stays. -/
  standing : (Authenticator.initial.run m (own ++ cancels env call?.toList)).1.standing
    = (Authenticator.initial.run m own).1.standing
  /-- It is the one that the last exchange to be recorded has left. -/
  last : Authenticator.LastExchange m .initial own
  /-- What becomes of the call. -/
  givenUp : ∀ call, call? = some call → Authenticator.GivenUp m own env call

/-- **What becomes of a provider when every scheduler is stopped**, if one at most is its own. -/
theorem exists_interrupted (h : Attended s) (hrecounts : Recounts s past) (env : Surroundings)
    (hsole : ∀ (j k : Nat) a b, s.schedulers[j]? = some (p, a) → s.schedulers[k]? = some (p, b) →
      j = k) {g : Guarded} (hg : s.provider? p = some g) :
    ∃ own call?, Interrupted s past env p g.method own call? := by
  obtain ⟨own, hown⟩ := hrecounts.exists_history hg
  obtain ⟨call?, hcall, htraces⟩ := exists_given env hsole
  have hrenews : ∀ call, call? = some call ↔ s.Renews p call := by
    intro call
    rw [hcall]
    constructor
    · rintro ⟨k, hk⟩
      obtain ⟨a, ha, hflight⟩ := flight?_eq_some.mp hk
      exact ⟨k, a, ha, (Renewal.Scheduler.flight?_eq_some_iff (h.single k p a ha)).mp hflight⟩
    · rintro ⟨k, a, ha, hholds⟩
      exact ⟨k, flight?_eq_some.mpr
        ⟨a, ha, (Renewal.Scheduler.flight?_eq_some_iff (h.single k p a ha)).mpr hholds⟩⟩
  have hcancels : ∀ x ∈ cancels env call?.toList, ∃ i, x.2 = .cancel i := by
    intro x hx
    obtain ⟨i, -, rfl⟩ := mem_cancels.mp hx
    exact ⟨i, rfl⟩
  have hafter := hown.extend htraces
  rw [List.append_nil] at hafter
  refine ⟨own, call?, hown, hrenews, fun call hsome hawaits => ?_, hafter, fun later => ?_, ?_,
    Authenticator.lastExchange_run _ _ own, fun call hsome => ?_⟩
  · exact h.apart p call hawaits ((hrenews call).mp hsome)
  · obtain ⟨rest, hrest⟩ := traces_run (s.step env .shutdown).1 later p
    have hlater := hafter.extend hrest
    rw [List.append_assoc] at hlater
    exact ⟨rest, hlater⟩
  · rw [Authenticator.run_append, Authenticator.standing_run,
      (Authenticator.run_of_cancels hcancels _ _).1]
    rfl
  · obtain ⟨k, a, ha, hholds⟩ := (hrenews call).mp hsome
    obtain ⟨g', phase, hg', hc⟩ := h.owned.logins k p a ha call hholds
    rw [Option.some.inj (hg'.symm.trans hown.provider)] at hc
    exact Authenticator.givenUp hc env

/-! ### What becomes of the services -/

/-- **What becomes of services when every scheduler is stopped.** -/
structure ShutDown (s : Services) (past : List Notice) (env : Surroundings) : Prop where
  /-- Nothing is let known. -/
  silent : (s.step env .shutdown).2 = []
  /-- The errands stay. -/
  tasks : (s.step env .shutdown).1.tasks = s.tasks
  /-- The settings of the client stay. -/
  settings : (s.step env .shutdown).1.settings = s.settings
  /-- The registrations stay. -/
  registry : (s.step env .shutdown).1.registry = s.registry
  /-- From then on no scheduler runs that nobody has started again. -/
  idle : ∀ (later : List (Surroundings × Event)) (k : Nat), (∀ x ∈ later, x.2.starts k = false) →
    ((s.step env .shutdown).1.run later).1.running[k]? ≠ some true
  /-- Whatever a provider sends, it sends for an errand that waits for it, or for a scheduler that
  somebody has started again. -/
  requests : ∀ (later : List (Surroundings × Event)) env' e p call r,
    .within p (.sent call r) ∈ (((s.step env .shutdown).1.run later).1.step env' e).2 →
      ((s.step env .shutdown).1.run later).1.Awaits p call ∨
        ∃ k a, (∃ x ∈ later, x.2.starts k = true) ∧
          ((s.step env .shutdown).1.run later).1.schedulers[k]? = some (p, a) ∧ a.Holds call
  /-- What becomes of the providers. -/
  providers : ∀ p g, s.provider? p = some g →
    ∃ own call?, Interrupted s past env p g.method own call?
  /-- Whenever an errand waits or has begun, it comes to its end. -/
  errands : ∀ (later : List (Surroundings × Event)) network env' (i : Nat) errand stage,
    ((s.step env .shutdown).1.run later).1.tasks[i]? = some ⟨errand, stage⟩ →
      ∃ more, GoOn network env' ((s.step env .shutdown).1.run later).1 more ∧
        ∃ outcome, (((s.step env .shutdown).1.run later).1.run more).1.tasks[i]?
          = some ⟨errand, .finished outcome⟩

end Services

namespace Startup

variable {setup : Setup} {reports : Bool} {s : Services} {past : List Services.Notice}

/-- A setup asks for one scheduler at most for each provider. -/
theorem nodup_lineup (setup : Setup) (reports : Bool) :
    ((setup.lineup reports).map Prod.fst).Nodup := by
  rw [Setup.lineup]
  cases setup.kubernetes.filter (·.renewal.enabled) <;>
    cases setup.token.filter (·.renewal.enabled) <;> simp

/-- Each provider has one scheduler at most. -/
theorem Reaches.eq_of_provider (h : Reaches setup reports s past) {p : Exchanger} {j k : Nat}
    {a b : Renewal.Scheduler Nat} (hj : s.schedulers[j]? = some (p, a))
    (hk : s.schedulers[k]? = some (p, b)) : j = k := by
  have hfirst : ∀ {i : Nat} {c : Renewal.Scheduler Nat}, s.schedulers[i]? = some (p, c) →
      ((setup.lineup reports).map Prod.fst)[i]? = some p := by
    intro i c hi
    rw [← h.lineup, Services.lineup, List.map_map, List.getElem?_map, hi]
    rfl
  have hlt := (List.getElem?_eq_some_iff.mp (hfirst hj)).1
  exact (List.getElem?_inj hlt (nodup_lineup setup reports)).mp
    ((hfirst hj).trans (hfirst hk).symm)

/-- **Interrupted renewals leave no trace.** Whatever has happened to the services of a setup since
they started, and wherever renewals are when every scheduler is stopped: no scheduler runs from then
on, and none sends anything, until somebody starts it again. A renewal that was under way does not
stand in line any more; an exchange that it had not recorded is recorded neither as a success nor as
a failure, and the other calls to its provider go on as if it had never begun. The standing of every
provider is the one that its last recorded exchange has left, settings and registrations are what
they were, and every errand comes to its end. -/
theorem interrupted_renewals (h : Reaches setup reports s past) (env : Surroundings) :
    s.ShutDown past env := by
  have hattended := h.attended.step env .shutdown
  have hattended' := Services.attended_run hattended
  have hsuited := Services.suited_run (h.suited.step env .shutdown)
  have hordered := Services.ordered_run (h.recounts.ordered.step env .shutdown)
  have hframe := Services.scheduled_shutdown env s
  have hidle : ∀ (later : List (Surroundings × Services.Event)) (k : Nat),
      (∀ x ∈ later, x.2.starts k = false) →
        ((s.step env .shutdown).1.run later).1.Idle k :=
    fun later k hlater => (Services.idle_shutdown env s k).run hattended.single hlater
  refine ⟨rfl, hframe.tasks, hframe.settings, hframe.registry, fun later k hlater hrun => ?_,
    fun later env' e p call r hsent => ?_,
    fun p g => Services.exists_interrupted h.attended h.recounts env fun j k a b =>
      h.eq_of_provider,
    fun later network env' i errand stage hi =>
      (hattended' later).exists_end (hsuited later) (hordered later) network env' hi⟩
  · rw [Services.running, List.getElem?_map] at hrun
    obtain ⟨⟨p, a⟩, hk, hrunning⟩ := Option.map_eq_some_iff.mp hrun
    cases (hidle later k hlater p a hk).symm.trans hrunning
  · rcases (hattended' later).attends_of_sent hsent with hawaits | ⟨k, a, hk, hholds⟩
    · exact .inl hawaits
    · -- a scheduler that waits for a call is running, so somebody has started it
      refine .inr ⟨k, a, Classical.byContradiction fun hnone => ?_, hk, hholds⟩
      have hlater : ∀ x ∈ later, x.2.starts k = false := by
        intro x hx
        rw [← Bool.not_eq_true]
        exact fun hstarts => hnone ⟨x, hx, hstarts⟩
      have hsole := (hattended' later).single k p a hk
      have hrunning := Renewal.Scheduler.isRunning_of_holds hsole hholds
      cases (hidle later k hlater p a hk).symm.trans hrunning

/-- A renewal is under way after thirty years, and a login that somebody has asked for waits behind
it. -/
def interruption : List (Surroundings × Services.Event) :=
  [.fire 0, .advance .kubernetes 1, .advance .kubernetes 1, .advance .kubernetes 1,
    .advance .kubernetes 1, .ask (.login "kubernetes"), .proceed 0, .advance .kubernetes 2,
    .advance .kubernetes 2].map fun e => (longMoment Renewal.Turn.longest, e)

/-- The services with a renewal under way. -/
def renewing (st : Startup) : Services :=
  (((st.run longLogin).1.services.joinedBy []).run interruption).1

/-- Which call the scheduler waits for, whether a reply is awaited, and who stands in line, if the
services are up. -/
def underWay (st : Startup) : Option (Option Nat × Bool × List Nat) :=
  match (st.run longLogin).1.stage with
  | .started => (renewing st).kubernetes.map fun g =>
      ((renewing st).flight? .kubernetes 0, (g.strategy.pending? 1).isSome, g.strategy.line)
  | _ => none

/-- A renewal that waits for its reply is interrupted, with a login in line behind it. -/
theorem interrupted_exchange :
    ∃ st past, begin longLived false (longMoment 0) = .ok st ∧
      underWay st = some (some 1, true, [1, 2]) ∧
        Reaches longLived false (renewing st) past ∧
          (renewing st).ShutDown past (longMoment Renewal.Turn.longest) := by
  have hunderWay : (begin longLived false (longMoment 0)).toOption.bind underWay
      = some (some 1, true, [1, 2]) := by decide +kernel
  obtain ⟨st, hst, hfound⟩ := exists_of_bind hunderWay
  have hstarted : (st.run longLogin).1.stage = .started := by
    rw [underWay] at hfound
    split at hfound
    · rename_i hstage
      exact hstage
    · cases hfound
  have hreaches := Reaches.up hst (by decide) hstarted [] interruption
  exact ⟨st, _, hst, hfound, hreaches, interrupted_renewals hreaches _⟩

/-- A setup with a strategy that renews its token in place. -/
def tokenAlone : Setup where
  vault := {
    url := ⟨.http, .absent, .name "vault.test", some 8200, [[]], none, none⟩
    method := Provider.renewal.method
    fallbackToken := none
    healthCheck := false
    healthPath := usualHealthPath
    standbyOk := false
    secretPath := usualSecretPath
    folder := some "ops"
    timeout := usualTimeout
    method_ne := by decide
    fallback_ne := by decide
    folder_named := by
      rintro folder ⟨⟩
      decide }
  kubernetes := none
  token := some {
    url := ⟨.http, .absent, .name "vault.test", some 8200, [[]], none, none⟩
    token := "s.token"
    renewal := {
      ttl := some 3600
      buffer := RenewalPolicy.usualBuffer
      enabled := true
      maxRetries := 0
      retryDelay := RenewalPolicy.usualRetryDelay
      ttl_valid := by
        rintro ttl ⟨⟩
        decide }
    token_named := by decide
    ttl_some := by decide }

/-- The schedulers are stopped, and then one of them is started and its timer goes off. -/
def startedAgain : List (Surroundings × Services.Event) :=
  [.shutdown, .start 0, .fire 0, .advance .renewal 0, .advance .renewal 0, .advance .renewal 0,
    .advance .renewal 0].map fun e => (longMoment 0, e)

/-- How many errands there are and how many requests are sent, if the services are up at once. -/
def sentAgain (st : Startup) : Option (Nat × Nat) :=
  match st.stage with
  | .started => some ((st.services.run startedAgain).1.tasks.size,
      (Services.requests (st.services.run startedAgain).2).length)
  | _ => none

/-- A scheduler that is started again after a shutdown sends a request though nobody has asked for
anything. -/
theorem sends_when_started_again :
    ∃ st, begin tokenAlone true (longMoment 0) = .ok st ∧ sentAgain st = some (0, 1) :=
  exists_of_bind (by decide +kernel)

end Startup

end VaultTokens
