import VaultTokens.Renewal.Scheduler

/-!
# Schedulers on a simulated clock

A scheduler whose logins follow a script: each login takes a given time and then succeeds, fails or
hangs. Time stands still but for the steps that let it pass; then every timer goes off and every
login ends at its own moment, the soonest of all workers first, and whatever is due at the present
moment happens before anything else.

That this always comes to an end is a property of workers: every event of a worker lies later than
the one before it, or uses up a repetition, or is a login after its timer. The weight of a worker
counts these three together, so that each event makes it less.

## Main statements

* `timeLeft_happen` — the reason why it ends
* `runUntil_next?` — nothing due is left
-/

namespace VaultTokens.Renewal

/-- One login of a script: how long it takes in nanoseconds, and what comes of it; `none` hangs. -/
structure Attempt where
  /-- The time until it ends or hangs. -/
  takes : Nat
  /-- What comes of it. -/
  outcome : Option (Except Failure (Option UInt64))

/-- A login under way. -/
structure Flight where
  /-- When it ends or begins to hang. -/
  ends : Nat
  /-- What comes of it. -/
  outcome : Option (Except Failure (Option UInt64))

/-- Whether a login hangs at a moment. -/
def Flight.hangs (f : Flight) (now : Nat) : Bool := f.outcome.isNone && f.ends ≤ now

/-- When the next event of a worker happens, if there is one to come. -/
def Worker.nextAt (w : Worker Flight) : Option Nat :=
  match w.wait with
  | .timer due => some due
  | .login f => if f.outcome.isSome then some f.ends else none

/-- A scheduler on a simulated clock. -/
structure Simulation where
  /-- The present moment. -/
  now : Nat
  /-- The scheduler and its workers. -/
  scheduler : Scheduler Flight
  /-- Whether the scheduler can still be used: it has not been dropped. -/
  present : Bool
  /-- The logins to come. -/
  script : List Attempt
  /-- Every login after those. -/
  afterwards : Attempt
  /-- How many hanging logins have been given up. -/
  dropped : Nat

namespace Simulation

/-- What happens in a simulation. -/
inductive Notice where
  /-- A login has begun. -/
  | began (moment : Nat)
  /-- A login has ended. -/
  | ended (moment : Nat) (outcome : Except Failure (Option UInt64))
  /-- A failure was reported. -/
  | reported (moment : Nat) (failure : Failure)
  /-- A login under way was given up. -/
  | gaveUp (flight : Flight)

/-- What is done with the scheduler. -/
inductive Step where
  /-- It is started. -/
  | start
  /-- It is started for a token that was just issued. -/
  | startFrom (lease : Option UInt64)
  /-- It is stopped. -/
  | stop
  /-- It is dropped; nothing is done with it any more. -/
  | drop
  /-- So many nanoseconds pass. -/
  | sleep (nanos : Nat)

/-- A simulation before its first step. -/
def initial (policy : RenewalPolicy) (reports : Bool) (script : List Attempt)
    (afterwards : Attempt) : Simulation :=
  ⟨0, .idle policy reports, true, script, afterwards, 0⟩

/-- The soonest event of some workers, with the place of the worker; of several at one moment, the
one in the first place. -/
def soonest : List (Option (Worker Flight)) → Option (Nat × Nat)
  | [] => none
  | w :: rest =>
    match w.bind Worker.nextAt, soonest rest with
    | none, none => none
    | none, some (later, k) => some (later, k + 1)
    | some moment, none => some (moment, 0)
    | some moment, some (later, k) =>
      if moment ≤ later then some (moment, 0) else some (later, k + 1)

/-- The moment of the next event, with the place of the worker, if there is one to come. -/
def next? (s : Simulation) : Option (Nat × Nat) := soonest s.scheduler.workers

/-- The next event of a worker happens, no sooner than at a moment. -/
def happen (s : Simulation) (moment k : Nat) : Simulation × List Notice :=
  match s.scheduler.worker? k with
  | none => (s, [])
  | some w =>
    let now := max s.now moment
    match w.wait with
    | .timer _ =>
      let attempt := s.script.headD s.afterwards
      ({ s with
          now
          scheduler := s.scheduler.loginBegun k ⟨now + attempt.takes, attempt.outcome⟩
          script := s.script.tail },
        [.began now])
    | .login ⟨_, some outcome⟩ =>
      let (scheduler, failure) := s.scheduler.loginEnded k now outcome
      ({ s with now, scheduler }, .ended now outcome :: (failure.map (Notice.reported now)).toList)
    | .login ⟨_, none⟩ => (s, [])

/-! ## Every event takes something away -/

/-- What a worker can still do until the end of the moment `t`: for each nanosecond all repetitions
that the policy allows, each of them a timer and a login. -/
def weight (t : Nat) (p : RenewalPolicy) (w : Worker Flight) : Nat :=
  match w.nextAt with
  | none => 0
  | some moment =>
    (t + 1 - moment) * (2 * p.maxRetries.toNat + 2) +
      2 * (p.maxRetries.toNat - w.failures.toNat) + (if w.due?.isSome then 1 else 0)

/-- The weight of all workers together. -/
def weigh (t : Nat) (p : RenewalPolicy) : List (Option (Worker Flight)) → Nat
  | [] => 0
  | w :: rest => w.elim 0 (weight t p) + weigh t p rest

theorem soonest_eq_some {ws : List (Option (Worker Flight))} {moment k : Nat}
    (h : soonest ws = some (moment, k)) :
    ∃ w, ws[k]?.join = some w ∧ w.nextAt = some moment := by
  induction ws generalizing moment k with
  | nil => cases h
  | cons w rest ih =>
    rw [soonest] at h
    split at h
    · cases h
    · rename_i later j _ hrest
      cases h
      exact ih hrest
    · rename_i hw _
      cases h
      obtain ⟨v, hv, hat⟩ := Option.bind_eq_some_iff.mp hw
      exact ⟨v, by simpa using hv, hat⟩
    · rename_i hw hrest
      split at h
      · cases h
        obtain ⟨v, hv, hat⟩ := Option.bind_eq_some_iff.mp hw
        exact ⟨v, by simpa using hv, hat⟩
      · cases h
        exact ih hrest

/-- No event of any worker comes before the soonest one, and there is one if a worker has one. -/
theorem soonest_le {ws : List (Option (Worker Flight))} {j e : Nat} {w : Worker Flight}
    (hw : ws[j]?.join = some w) (he : w.nextAt = some e) :
    ∃ moment k, soonest ws = some (moment, k) ∧ moment ≤ e := by
  induction ws generalizing j with
  | nil => simp at hw
  | cons v rest ih =>
    rw [soonest]
    cases j with
    | zero =>
      have hv : v.bind Worker.nextAt = some e := by
        rw [show v = some w by simpa using hw]
        exact he
      rw [hv]
      split
      · simp_all
      · simp_all
      · simp_all
      · split
        · simp_all
        · exact ⟨_, _, rfl, by simp_all; omega⟩
    | succ j =>
      obtain ⟨moment, k, hrest, hle⟩ := ih (by simpa using hw)
      rw [hrest]
      split
      · simp_all
      · simp_all
      · simp_all
      · split
        · exact ⟨_, _, rfl, by simp_all; omega⟩
        · simp_all

theorem weigh_set (t : Nat) (p : RenewalPolicy) {ws : List (Option (Worker Flight))} {k : Nat}
    {w : Worker Flight} (hw : ws[k]?.join = some w) (w' : Option (Worker Flight)) :
    weigh t p (ws.set k w') + weight t p w = weigh t p ws + w'.elim 0 (weight t p) := by
  induction ws generalizing k with
  | nil => simp at hw
  | cons v rest ih =>
    cases k with
    | zero =>
      rw [show v = some w by simpa using hw]
      simp only [List.set_cons_zero, weigh, Option.elim_some]
      omega
    | succ k =>
      have hrest := ih (by simpa using hw)
      simp only [List.set_cons_succ, weigh]
      omega

/-- A login that begins weighs less than the timer before it. -/
theorem weight_loginBegun (t : Nat) (p : RenewalPolicy) (failures : UInt32) {due : Nat} {f : Flight}
    (h : due ≤ f.ends) :
    weight t p ⟨.login f, failures⟩ < weight t p ⟨.timer due, failures⟩ := by
  have hmono : (t + 1 - f.ends) * (2 * p.maxRetries.toNat + 2)
      ≤ (t + 1 - due) * (2 * p.maxRetries.toNat + 2) :=
    Nat.mul_le_mul_right _ (by omega)
  by_cases hf : f.outcome.isSome
  · simp [weight, Worker.nextAt, Worker.due?, hf]
    omega
  · simp [weight, Worker.nextAt, Worker.due?, hf]

/-- What is left of a worker behind its login weighs less than the login. -/
theorem weight_afterLogin (p : RenewalPolicy) (failures : UInt32)
    (outcome : Except Failure (Option UInt64)) {t now ends : Nat} (hends : ends ≤ t)
    (hnow : ends ≤ now) :
    (Scheduler.afterLogin p now failures outcome).elim 0 (weight t p)
      < weight t p ⟨.login ⟨ends, some outcome⟩, failures⟩ := by
  have hlogin : weight t p ⟨.login ⟨ends, some outcome⟩, failures⟩
      = (t + 1 - ends) * (2 * p.maxRetries.toNat + 2)
        + 2 * (p.maxRetries.toNat - failures.toNat) := by
    simp [weight, Worker.nextAt, Worker.due?]
  have hpos : 2 * p.maxRetries.toNat + 2 ≤ (t + 1 - ends) * (2 * p.maxRetries.toNat + 2) :=
    Nat.le_mul_of_pos_left _ (by omega)
  have htimer : ∀ due (n : UInt32), weight t p ⟨.timer due, n⟩
      = (t + 1 - due) * (2 * p.maxRetries.toNat + 2) + 2 * (p.maxRetries.toNat - n.toNat) + 1 := by
    intro due n
    simp [weight, Worker.nextAt, Worker.due?]
  rw [hlogin]
  cases outcome with
  | ok lease =>
    cases lease with
    | none =>
      simp only [Scheduler.afterLogin, Option.elim_none]
      omega
    | some lease =>
      -- the renewal lies a second later, which outweighs all repetitions
      have hdue := deadline_nextDelay now lease p.buffer
      have hsecond : 0 < nanosPerSecond := by decide
      have hmul : (t + 1 - deadline now (nextDelay lease p.buffer) + 1)
          * (2 * p.maxRetries.toNat + 2) ≤ (t + 1 - ends) * (2 * p.maxRetries.toNat + 2) :=
        Nat.mul_le_mul_right _ (by omega)
      rw [Nat.add_mul, Nat.one_mul] at hmul
      have hzero : (0 : UInt32).toNat = 0 := rfl
      simp only [Scheduler.afterLogin, Option.elim_some, htimer, hzero]
      omega
  | error f =>
    simp only [Scheduler.afterLogin]
    split
    · rw [Option.elim_none]
      omega
    · rename_i hlt
      rw [UInt32.le_iff_toNat_le] at hlt
      have hword := p.maxRetries.toNat_lt
      have hone : (1 : UInt32).toNat = 1 := rfl
      have hnext : (failures + 1).toNat = failures.toNat + 1 := by
        rw [UInt32.toNat_add]
        omega
      have hdue := le_deadline now (Scheduler.retryDelay p failures)
      have hmul : (t + 1 - deadline now (Scheduler.retryDelay p failures))
          * (2 * p.maxRetries.toNat + 2) ≤ (t + 1 - ends) * (2 * p.maxRetries.toNat + 2) :=
        Nat.mul_le_mul_right _ (by omega)
      simp only [Option.elim_some, htimer, hnext]
      omega

/-- What the workers can still do by the moment `t`. -/
def timeLeft (t : Nat) (s : Simulation) : Nat := weigh t s.scheduler.policy s.scheduler.workers

/-- An event that is due by the moment `t` takes something away from what can be done by then. -/
theorem timeLeft_happen {t moment k : Nat} {s : Simulation} (h : s.next? = some (moment, k))
    (hle : moment ≤ t) : timeLeft t (s.happen moment k).1 < timeLeft t s := by
  obtain ⟨w, hw, hat⟩ := soonest_eq_some h
  have hw' : s.scheduler.worker? k = some w := hw
  have hset := weigh_set t s.scheduler.policy hw
  obtain ⟨wait, failures⟩ := w
  cases wait with
  | timer due =>
    obtain rfl : due = moment := by simpa [Worker.nextAt] using hat
    have hends : due ≤ max s.now due + (s.script.headD s.afterwards).takes := by omega
    have hless := weight_loginBegun t s.scheduler.policy failures
      (f := ⟨_, (s.script.headD s.afterwards).outcome⟩) hends
    have hsum := hset (some ⟨.login ⟨max s.now due + (s.script.headD s.afterwards).takes,
      (s.script.headD s.afterwards).outcome⟩, failures⟩)
    rw [Option.elim_some] at hsum
    simp only [timeLeft, happen, hw', Scheduler.loginBegun, Scheduler.put]
    omega
  | login f =>
    obtain ⟨ends, outcome⟩ := f
    cases outcome with
    | none => simp [Worker.nextAt] at hat
    | some outcome =>
      obtain rfl : ends = moment := by simpa [Worker.nextAt] using hat
      have hless := weight_afterLogin s.scheduler.policy failures outcome hle
        (Nat.le_max_right s.now ends)
      have hsum := hset (Scheduler.afterLogin s.scheduler.policy (max s.now ends) failures outcome)
      simp only [timeLeft, happen, hw', Scheduler.loginEnded, Scheduler.put]
      omega

/-! ## Time passes -/

/-- Everything happens that is due by the moment `t`, and then it is that moment. -/
def runUntil (t : Nat) (s : Simulation) : Simulation × List Notice :=
  match _h : s.next? with
  | none => ({ s with now := max s.now t }, [])
  | some (moment, k) =>
    if _hle : moment ≤ t then
      let rest := runUntil t (s.happen moment k).1
      (rest.1, (s.happen moment k).2 ++ rest.2)
    else ({ s with now := max s.now t }, [])
termination_by timeLeft t s
decreasing_by exact timeLeft_happen _h _hle

/-- The simulation after something was done with its scheduler; a login that was thereby given up
counts if it was hanging. -/
def replace (s : Simulation) (r : Scheduler Flight × Option Flight) : Simulation × List Notice :=
  let hanging := if r.2.any (·.hangs s.now) then 1 else 0
  ({ s with scheduler := r.1, dropped := s.dropped + hanging }, (r.2.map Notice.gaveUp).toList)

/-- A step is taken, before anything that is due. -/
def act (s : Simulation) (step : Step) : Simulation × List Notice :=
  if s.present then
    match step with
    | .start => s.replace (s.scheduler.start s.now)
    | .startFrom lease => s.replace (s.scheduler.startFrom s.now lease)
    | .stop => s.replace s.scheduler.stop
    | .drop => { s with present := false }.replace s.scheduler.release
    | .sleep _ => (s, [])
  else (s, [])

/-- The moment up to which a step lets everything happen. -/
def horizon (s : Simulation) : Step → Nat
  | .sleep nanos => s.now + nanos
  | _ => s.now

/-- A step is taken, and everything that is due happens. -/
def step (s : Simulation) (step : Step) : Simulation × List Notice :=
  let (acted, notices) := s.act step
  let (ended, more) := runUntil (s.horizon step) acted
  (ended, notices ++ more)

/-- Some steps are taken, one after the other. -/
def run (s : Simulation) : List Step → Simulation × List Notice
  | [] => (s, [])
  | first :: rest =>
    let (s, notices) := s.step first
    let (s, more) := run s rest
    (s, notices ++ more)

/-- Whether the scheduler is running; `none` after it was dropped. -/
def isRunning (s : Simulation) : Option Bool :=
  if s.present then some s.scheduler.isRunning else none

/-- After it has run, nothing is due by the moment it ran to. -/
theorem runUntil_next? (t : Nat) (s : Simulation) :
    ∀ moment k, (runUntil t s).1.next? = some (moment, k) → t < moment := by
  fun_induction runUntil t s with
  | case1 s hnone =>
    intro moment k hnext
    change s.next? = some (moment, k) at hnext
    rw [hnone] at hnext
    cases hnext
  | case2 s moment k hsome hle rest ih => exact ih
  | case3 s moment k hsome hgt =>
    intro later j hnext
    change s.next? = some (later, j) at hnext
    rw [hsome] at hnext
    cases hnext
    omega

end Simulation

end VaultTokens.Renewal
