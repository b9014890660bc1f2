import VaultTokens.Proofs.CallOrigins
import VaultTokens.Proofs.RenewalTimeline

/-!
# What happens to a scheduler

An event of the services changes one scheduler or all of them, and in few ways: a timer has gone off
and a login begins, a login has ended, or somebody starts or stops the scheduler. `Moved` lists
them. Whatever happens, a scheduler keeps its place, its provider and its policy.

A scheduler whose timer is set waits for it. Until somebody stops it, nothing that happens makes it
begin a login before that moment, and the first time its timer goes off from then on it begins one.

## Main results

* `moved_step` — what an event does to a scheduler
* `lineup_run` — schedulers keep their places, providers and policies
* `Waits.firstRenewal` — when the first renewal of a scheduler begins
-/

namespace VaultTokens

namespace Renewal.Scheduler

variable {Login : Type} {a : Scheduler Login}

theorem policy_loginBegun (a : Scheduler Login) (k : Nat) (login : Login) :
    (a.loginBegun k login).policy = a.policy ∧ (a.loginBegun k login).reports = a.reports := by
  rw [loginBegun]
  split <;> exact ⟨rfl, rfl⟩

theorem policy_loginEnded (a : Scheduler Login) (k now : Nat)
    (outcome : Except Failure (Option UInt64)) :
    (a.loginEnded k now outcome).1.policy = a.policy ∧
      (a.loginEnded k now outcome).1.reports = a.reports := by
  simp only [loginEnded]
  split <;> exact ⟨rfl, rfl⟩

theorem policy_startFrom (a : Scheduler Login) (now : Nat) (lease : Option UInt64) :
    (a.startFrom now lease).1.policy = a.policy ∧
      (a.startFrom now lease).1.reports = a.reports := by
  cases lease with
  | none => exact ⟨rfl, rfl⟩
  | some lease => exact policy_spawn a _

end Renewal.Scheduler

namespace Services

variable {s t : Services} {env : Surroundings} {e : Event} {p : Exchanger} {k due : Nat}
  {a b : Renewal.Scheduler Nat}

/-! ### What an event does to a scheduler -/

/-- Whether an event stops a scheduler. -/
def Event.interrupts (k : Nat) : Event → Bool
  | .stop j => j == k
  | .shutdown => true
  | _ => false

/-- What an event does to the scheduler in a place. -/
inductive Moved (env : Surroundings) (s : Services) (p : Exchanger) (k : Nat) :
    Event → Renewal.Scheduler Nat → Renewal.Scheduler Nat → Prop where
  /-- Nothing. -/
  | stays (e : Event) (a : Renewal.Scheduler Nat) : Moved env s p k e a a
  /-- Its timer has gone off and a login begins. -/
  | begins {a : Renewal.Scheduler Nat} {worker call : Nat}
    (hdue : a.dueBy? env.moment = some worker) (hcall : s.nextCall? p = some call) :
    Moved env s p k (.fire k) a (a.loginBegun worker call)
  /-- The login that it waited for has ended. -/
  | ends {a : Renewal.Scheduler Nat} {worker : Nat} {result : Except Failure Issued}
    (hsettled : s.settled? p a = some (worker, .issued result)) :
    Moved env s p k (.settle k) a (a.loginEnded worker env.moment (result.map Issued.lease)).1
  /-- It is started. -/
  | starts (a : Renewal.Scheduler Nat) : Moved env s p k (.start k) a (a.start env.moment).1
  /-- It is started for a token that was just issued. -/
  | startsFrom (a : Renewal.Scheduler Nat) (lease : Option UInt64) :
    Moved env s p k (.startFrom k lease) a (a.startFrom env.moment lease).1
  /-- It is stopped. -/
  | stops {e : Event} (a : Renewal.Scheduler Nat) (he : e.interrupts k = true) :
    Moved env s p k e a a.stop.1

theorem getElem?_setScheduler (s : Services) (j : Nat) (b : Renewal.Scheduler Nat)
    (hk : s.schedulers[k]? = some (p, a)) :
    (s.setScheduler j b).schedulers[k]? = some (p, if j = k then b else a) := by
  rw [setScheduler, List.getElem?_modify, hk]
  by_cases hjk : j = k <;> simp [hjk]

theorem getElem?_command (env : Surroundings) (s : Services) (j : Nat)
    (f : Renewal.Scheduler Nat → Renewal.Scheduler Nat × Option Nat)
    (hk : s.schedulers[k]? = some (p, a)) :
    (s.command env j f).schedulers[k]? = some (p, if j = k then (f a).1 else a) := by
  rw [schedulers_command, List.getElem?_modify, hk]
  by_cases hjk : j = k <;> simp [hjk]

/-- Stopping every scheduler stops each of them once. -/
theorem getElem?_shutdown (env : Surroundings) (hk : s.schedulers[k]? = some (p, a)) :
    (s.shutdown env).schedulers[k]? = some (p, a.stop.1) := by
  have key : ∀ (ks : List Nat) (t : Services) (a : Renewal.Scheduler Nat), ks.Nodup →
      t.schedulers[k]? = some (p, a) →
      (ks.foldl (stop env) t).schedulers[k]? = some (p, if k ∈ ks then a.stop.1 else a) := by
    intro ks
    induction ks with
    | nil => exact fun t a _ ht => by simpa using ht
    | cons j ks ih =>
      intro t a hnodup ht
      obtain ⟨hj, hks⟩ := List.nodup_cons.mp hnodup
      rw [List.foldl_cons, ih (t.stop env j) _ hks (getElem?_command env t j _ ht)]
      by_cases hjk : j = k
      · subst hjk
        simp [hj]
      · simp [hjk, Ne.symm hjk]
  rw [shutdown, key _ s a List.nodup_range hk, if_pos]
  exact List.mem_range.mpr (List.getElem?_eq_some_iff.mp hk).1

theorem getElem?_fire_of_ne (env : Surroundings) (s : Services) {j : Nat} (hjk : j ≠ k) :
    (s.fire env j).1.schedulers[k]? = s.schedulers[k]? := by
  rw [fire]
  split
  · rfl
  · split
    · simp [setScheduler, hjk]
    · rfl

theorem getElem?_settle_of_ne (env : Surroundings) (s : Services) {j : Nat} (hjk : j ≠ k) :
    (s.settle env j).1.schedulers[k]? = s.schedulers[k]? := by
  rw [settle]
  split
  · rfl
  · split
    · simp [setScheduler, hjk]
    · rfl

/-- **What an event does to a scheduler.** -/
theorem moved_step (env : Surroundings) (e : Event) (hk : s.schedulers[k]? = some (p, a)) :
    ∃ b, (s.step env e).1.schedulers[k]? = some (p, b) ∧ Moved env s p k e a b := by
  have still : (s.step env e).1.schedulers = s.schedulers →
      ∃ b, (s.step env e).1.schedulers[k]? = some (p, b) ∧ Moved env s p k e a b :=
    fun hsame => ⟨a, by rw [hsame]; exact hk, .stays e a⟩
  have commanded : ∀ {e : Event} {j : Nat} f, (s.step env e).1 = s.command env j f →
      Moved env s p j e a (f a).1 →
      ∃ b, (s.step env e).1.schedulers[k]? = some (p, b) ∧ Moved env s p k e a b := by
    intro e j f hstep hmoved
    by_cases hjk : j = k
    · subst hjk
      exact ⟨_, by rw [hstep, getElem?_command env s j f hk, if_pos rfl], hmoved⟩
    · exact ⟨a, by rw [hstep, getElem?_command env s j f hk, if_neg hjk], .stays e a⟩
  cases e with
  | ask | register => exact still rfl
  | proceed | reply => exact still ((change_step env s _).schedulers_eq rfl)
  | advance | deliver => exact still (schedulers_within ..)
  | fire j =>
    by_cases hjk : j = k
    · subst hjk
      rw [Services.step, Services.fire, hk]
      simp only
      split
      · rename_i worker call hdue hcall
        refine ⟨_, ?_, .begins hdue hcall⟩
        rw [getElem?_setScheduler _ j _ (by rw [schedulers_within]; exact hk), if_pos rfl]
      · exact ⟨a, hk, .stays _ a⟩
    · exact ⟨a, (getElem?_fire_of_ne env s hjk).trans hk, .stays _ a⟩
  | settle j =>
    by_cases hjk : j = k
    · subst hjk
      rw [Services.step, Services.settle, hk]
      simp only
      split
      · rename_i worker result hsettled
        refine ⟨_, ?_, .ends hsettled⟩
        rw [getElem?_setScheduler _ j _ hk, if_pos rfl]
      · exact ⟨a, hk, .stays _ a⟩
    · exact ⟨a, (getElem?_settle_of_ne env s hjk).trans hk, .stays _ a⟩
  | start j => exact commanded _ rfl (.starts a)
  | startFrom j lease => exact commanded _ rfl (.startsFrom a lease)
  | stop j => exact commanded _ rfl (.stops a (beq_self_eq_true j))
  | shutdown => exact ⟨_, getElem?_shutdown env hk, .stops a rfl⟩

/-- Where there is no scheduler, there is none after an event. -/
theorem length_schedulers_step (env : Surroundings) (s : Services) (e : Event) :
    (s.step env e).1.schedulers.length = s.schedulers.length := by
  have commanded : ∀ j f, (s.command env j f).schedulers.length = s.schedulers.length :=
    fun j f => by rw [schedulers_command, List.length_modify]
  cases e with
  | ask | register => rfl
  | proceed | reply => rw [(change_step env s _).schedulers_eq rfl]
  | advance | deliver => exact congrArg List.length (schedulers_within ..)
  | fire j =>
    rw [Services.step, fire]
    split
    · rfl
    · split
      · simp [setScheduler]
      · rfl
  | settle j =>
    rw [Services.step, settle]
    split
    · rfl
    · split
      · simp [setScheduler]
      · rfl
  | start j => exact commanded j _
  | startFrom j lease => exact commanded j _
  | stop j => exact commanded j _
  | shutdown =>
    have stopped : ∀ (ks : List Nat) (s : Services),
        (ks.foldl (stop env) s).schedulers.length = s.schedulers.length := by
      intro ks
      induction ks with
      | nil => exact fun s => rfl
      | cons j ks ih =>
        intro s
        rw [List.foldl_cons, ih, stop, schedulers_command, List.length_modify]
    exact stopped _ s

/-! ### Places, providers and policies -/

theorem Moved.policy_eq (h : Moved env s p k e a b) :
    b.policy = a.policy ∧ b.reports = a.reports := by
  cases h with
  | stays => exact ⟨rfl, rfl⟩
  | begins => exact Renewal.Scheduler.policy_loginBegun ..
  | ends => exact Renewal.Scheduler.policy_loginEnded ..
  | starts => exact Renewal.Scheduler.policy_spawn ..
  | startsFrom => exact Renewal.Scheduler.policy_startFrom ..
  | stops => exact Renewal.Scheduler.policy_release _

/-- What a scheduler keeps: its provider, its policy and whether it reports failures. -/
def slot (entry : Exchanger × Renewal.Scheduler Nat) : Exchanger × RenewalPolicy × Bool :=
  (entry.1, entry.2.policy, entry.2.reports)

/-- What the schedulers keep, in order. -/
def lineup (s : Services) : List (Exchanger × RenewalPolicy × Bool) := s.schedulers.map slot

theorem lineup_step (env : Surroundings) (s : Services) (e : Event) :
    (s.step env e).1.lineup = s.lineup := by
  refine List.ext_getElem? fun k => ?_
  rw [lineup, lineup, List.getElem?_map, List.getElem?_map]
  cases hk : s.schedulers[k]? with
  | none =>
    rw [List.getElem?_eq_none_iff, ← length_schedulers_step env s e] at hk
    rw [List.getElem?_eq_none_iff.mpr hk]
  | some entry =>
    obtain ⟨b, hb, hmoved⟩ := moved_step env e hk
    obtain ⟨hpolicy, hreports⟩ := hmoved.policy_eq
    rw [hb]
    simp [slot, hpolicy, hreports]

/-- **Schedulers keep their places, providers and policies.** -/
theorem lineup_run (s : Services) (events : List (Surroundings × Event)) :
    (s.run events).1.lineup = s.lineup := by
  induction events generalizing s with
  | nil => rfl
  | cons x rest ih =>
    obtain ⟨env, e⟩ := x
    exact (ih _).trans (lineup_step env s e)

/-! ### The first renewal -/

/-- A scheduler has a worker, just started, that waits for its timer. -/
structure Waits (s : Services) (k : Nat) (p : Exchanger) (due : Nat) : Prop where
  /-- The one worker there is waits for the timer. -/
  scheduler : ∃ a, s.schedulers[k]? = some (p, a) ∧ a.workers = [some ⟨.timer due, 0⟩] ∧
    a.kept = some 0
  /-- There is a provider to call. -/
  provider : (s.provider? p).isSome = true

theorem isRunning_of_timer (hworkers : a.workers = [some ⟨.timer due, 0⟩])
    (hkept : a.kept = some 0) : a.isRunning = true := by
  simp [Renewal.Scheduler.isRunning, hkept, Renewal.Scheduler.worker?, hworkers]

theorem dueBy?_of_timer (hworkers : a.workers = [some ⟨.timer due, 0⟩]) (moment : Nat) :
    a.dueBy? moment = if due ≤ moment then some 0 else none := by
  by_cases h : due ≤ moment <;>
    simp [Renewal.Scheduler.dueBy?, hworkers, Renewal.Worker.due?, List.findIdx?_cons, h]

theorem underWay_of_timer (hworkers : a.workers = [some ⟨.timer due, 0⟩]) : a.underWay = [] := by
  rw [Renewal.Scheduler.underWay, hworkers]
  rfl

theorem isSome_provider?_step (env : Surroundings) (e : Event)
    (h : (s.provider? p).isSome = true) : ((s.step env e).1.provider? p).isSome = true := by
  obtain ⟨own, htraces⟩ := (change_step env s e).traces p
  rw [htraces.provider, Option.isSome_map, h]

/-- Whether an event lets a scheduler wait: it does not stop it, and the timer does not go off. -/
def lets (k due : Nat) (x : Surroundings × Event) : Prop :=
  x.2.interrupts k = false ∧ (x.2 = .fire k → x.1.moment < due)

theorem Waits.step (h : Waits s k p due) (hlets : lets k due (env, e)) :
    Waits (s.step env e).1 k p due := by
  obtain ⟨a, hk, hworkers, hkept⟩ := h.scheduler
  obtain ⟨b, hb, hmoved⟩ := moved_step env e hk
  have hrun := isRunning_of_timer hworkers hkept
  refine ⟨⟨b, hb, ?_⟩, isSome_provider?_step env e h.provider⟩
  cases hmoved with
  | stays => exact ⟨hworkers, hkept⟩
  | begins hdue =>
    rw [dueBy?_of_timer hworkers, if_neg (Nat.not_le_of_lt (hlets.2 rfl))] at hdue
    cases hdue
  | ends hsettled =>
    rw [settled?, underWay_of_timer hworkers] at hsettled
    cases hsettled
  | starts =>
    rw [Renewal.Scheduler.start_of_isRunning hrun]
    exact ⟨hworkers, hkept⟩
  | startsFrom =>
    rw [Renewal.Scheduler.startFrom_of_isRunning hrun]
    exact ⟨hworkers, hkept⟩
  | stops _ he => exact absurd (hlets.1.symm.trans he) Bool.false_ne_true

theorem Waits.run (h : Waits s k p due) {events : List (Surroundings × Event)}
    (hlets : ∀ x ∈ events, lets k due x) : Waits (s.run events).1 k p due := by
  induction events generalizing s with
  | nil => exact h
  | cons x rest ih =>
    exact ih (h.step (hlets x List.mem_cons_self)) fun y hy => hlets y (List.mem_cons_of_mem _ hy)

/-- Before the moment the timer does nothing. -/
theorem Waits.fire_early (h : Waits s k p due) (hearly : env.moment < due) :
    s.step env (.fire k) = (s, []) := by
  obtain ⟨a, hk, hworkers, -⟩ := h.scheduler
  have hdue := dueBy?_of_timer hworkers env.moment
  rw [if_neg (Nat.not_le_of_lt hearly)] at hdue
  simp only [Services.step, Services.fire, hk, hdue]

/-- From the moment on it begins a login. -/
theorem Waits.fire_due (h : Waits s k p due) (hdue : due ≤ env.moment) :
    ∃ g, s.provider? p = some g ∧
      (s.step env (.fire k)).1.provider? p = some (g.after [(env, .begin .login)]) := by
  obtain ⟨a, hk, hworkers, -⟩ := h.scheduler
  obtain ⟨g, hg⟩ := Option.isSome_iff_exists.mp h.provider
  refine ⟨g, hg, ?_⟩
  have hdueBy := dueBy?_of_timer hworkers env.moment
  rw [if_pos hdue] at hdueBy
  have hcall : s.nextCall? p = some g.strategy.calls.size := nextCall?_eq_some.mpr ⟨g, hg, rfl⟩
  simp only [Services.step, Services.fire, hk, hdueBy, hcall, provider?_setScheduler]
  rw [(traces_within env s p p _).provider, if_pos rfl, hg]
  rfl

/-- Nothing happens later than a timer that has not gone off by then: timers are punctual. -/
def Punctual (s : Services) (events : List (Surroundings × Event)) : Prop :=
  ∀ before env e after, events = before ++ (env, e) :: after →
    ∀ entry ∈ (s.run before).1.schedulers, ∀ worker ∈ entry.2.workers, ∀ due,
      worker.bind Renewal.Worker.due? = some due → env.moment ≤ due

/-- **When the first renewal of a scheduler begins**: at a moment, and not before. For as long as
nobody stops the scheduler and its timer has not gone off at that moment or later, the scheduler
runs. A timer that goes off before it does nothing, and one that goes off from then on begins a
login; if timers are punctual, it does so at the very moment. -/
structure FirstRenewal (s : Services) (k : Nat) (p : Exchanger) (due : Nat) : Prop where
  /-- The scheduler runs until then. -/
  running : ∀ more, (∀ x ∈ more, lets k due x) → (s.run more).1.running[k]? = some true
  /-- Before the moment nothing is renewed. -/
  early : ∀ more, (∀ x ∈ more, lets k due x) → ∀ env, env.moment < due →
    (s.run more).1.step env (.fire k) = ((s.run more).1, [])
  /-- From the moment on a login begins. -/
  later : ∀ more, (∀ x ∈ more, lets k due x) → ∀ env, due ≤ env.moment →
    ∃ g, (s.run more).1.provider? p = some g ∧
      ((s.run more).1.step env (.fire k)).1.provider? p = some (g.after [(env, .begin .login)])
  /-- It begins at the very moment, if timers are punctual. -/
  punctual : ∀ more, (∀ x ∈ more, lets k due x) → ∀ env, due ≤ env.moment →
    Punctual s (more ++ [(env, .fire k)]) → env.moment = due

theorem Waits.firstRenewal (h : Waits s k p due) : FirstRenewal s k p due := by
  constructor
  · intro more hlets
    obtain ⟨a, hk, hworkers, hkept⟩ := (h.run hlets).scheduler
    rw [running, List.getElem?_map, hk]
    exact congrArg some (isRunning_of_timer hworkers hkept)
  · intro more hlets env hearly
    exact (h.run hlets).fire_early hearly
  · intro more hlets env hdue
    exact (h.run hlets).fire_due hdue
  · intro more hlets env hdue hpunctual
    obtain ⟨a, hk, hworkers, -⟩ := (h.run hlets).scheduler
    refine Nat.le_antisymm ?_ hdue
    exact hpunctual more env (.fire k) [] rfl (p, a) (List.mem_of_getElem? hk)
      (some ⟨.timer due, 0⟩) (by rw [hworkers]; exact List.mem_cons_self) due rfl

end Services

end VaultTokens
