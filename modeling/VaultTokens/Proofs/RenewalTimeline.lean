import VaultTokens.Proofs.RetryDelays
import VaultTokens.Proofs.SoleWorker

/-!
# The timeline of renewals

When the logins of a worker begin can be said without workers and timers. The first one begins at
once, or when the token it was started for is due. After a success the next one is counted from its
end and lies before the end of the lease by the buffer, but a second later at least; after a failure
the wait doubles with every failure in a row, five times at most. No wait is longer than thirty
years. This recurrence (`Turn.follow`) knows nothing of who lets time pass or in what portions.

## The invariant

`OnTime` compares a run with the timeline: what has happened is the beginning of what the timeline
says (`Leads`). Its `Stage` says where between two logins the worker is: it waits for the next one
of the timeline, it has the last one under way, or there is no next one.

## Main results

* `Turn.afterLogin_eq` — what a worker does after a login is one step of the timeline
* `OnTime.happening` — every event is the one that comes next in the timeline
* `renewal_timeline` — which logins began, ended and were reported, at any moment of any run
-/

namespace VaultTokens

/-- The usual factor doubles with every failure, five times at most. -/
theorem Backoff.toNat_factor_standard (attempt : UInt32) :
    (standard.factor attempt).toNat = Nat.pow 2 (min attempt.toNat 5) := by
  have hword : Nat.pow 2 (min attempt.toNat 5) ≤ UInt32.size - 1 :=
    calc Nat.pow 2 (min attempt.toNat 5)
        ≤ Nat.pow 2 5 := Nat.pow_le_pow_right (by decide) (Nat.min_le_right ..)
      _ ≤ UInt32.size - 1 := by decide
  rw [toNat_factor]
  exact Nat.min_eq_left hword

namespace Renewal

/-! ### The beginning of a sequence -/

/-- A list is the beginning of a sequence, and what it contains has a property. -/
def Leads {α : Type} (l : List α) (sequence : Nat → Option α) (p : α → Bool) : Prop :=
  ∀ i a, l[i]? = some a → sequence i = some a ∧ p a = true

section Leads

variable {α : Type} {l : List α} {sequence : Nat → Option α} {p q : α → Bool}

theorem leads_nil (sequence : Nat → Option α) (p : α → Bool) : Leads [] sequence p := by
  intro i a h
  cases h

theorem Leads.mono (h : Leads l sequence p) (hpq : ∀ a, p a = true → q a = true) :
    Leads l sequence q :=
  fun i a hi => ⟨(h i a hi).1, hpq a (h i a hi).2⟩

theorem Leads.push (h : Leads l sequence p) {a : α} (hnext : sequence l.length = some a)
    (ha : p a = true) : Leads (l ++ [a]) sequence p := by
  intro i b hi
  obtain hlt | rfl | hgt := Nat.lt_trichotomy i l.length
  · rw [List.getElem?_append_left hlt] at hi
    exact h i b hi
  · rw [List.getElem?_concat_length] at hi
    obtain rfl := Option.some.inj hi
    exact ⟨hnext, ha⟩
  · rw [List.getElem?_eq_none (by rw [List.length_append, List.length_singleton]; omega)] at hi
    cases hi

/-- A list that ends where the property does is all that the sequence has of it. -/
theorem Leads.getElem?_eq (h : Leads l sequence p)
    (hrest : ∀ i a, l.length ≤ i → sequence i = some a → p a = false) (i : Nat) :
    l[i]? = (sequence i).filter p := by
  cases hi : l[i]? with
  | some a =>
    obtain ⟨hs, ha⟩ := h i a hi
    rw [hs, Option.filter_some, if_pos ha]
  | none =>
    have hle := List.getElem?_eq_none_iff.mp hi
    cases hs : sequence i with
    | none => rfl
    | some a => rw [Option.filter_some, hrest i a hle hs, if_neg Bool.false_ne_true]

/-- What is no later than one moment is no later than the next. -/
theorem Leads.later {moment : α → Nat} {now now' : Nat}
    (h : Leads l sequence (moment · ≤ now)) (hle : now ≤ now') :
    Leads l sequence (moment · ≤ now') :=
  h.mono fun _ ha => decide_eq_true (Nat.le_trans (of_decide_eq_true ha) hle)

end Leads

/-- A login of a timeline: when it begins, and after how many failures in a row. -/
structure Turn where
  /-- When it begins. -/
  moment : Nat
  /-- How many logins have failed since the last success. -/
  failures : Nat

namespace Turn

/-- The longest wait in nanoseconds: thirty years of 365 days. -/
def longest : Nat := 946080000 * nanosPerSecond

/-- The wait before the renewal of a token that was issued for so many seconds. -/
def renewalWait (p : RenewalPolicy) (lease : UInt64) : Nat :=
  min (max nanosPerSecond ((lease.toNat - p.buffer.toNat) * nanosPerSecond)) longest

/-- The wait before a login is repeated after so many earlier failures. -/
def retryWait (p : RenewalPolicy) (failures : Nat) : Nat :=
  min (p.retryDelay.toNanos * Nat.pow 2 (min failures 5)) longest

/-- When a login ends, and how, unless it never does. -/
def completion (turn : Turn) (attempt : Attempt) :
    Option (Nat × Except Failure (Option UInt64)) :=
  attempt.outcome.map fun outcome => (turn.moment + attempt.takes, outcome)

/-- The login that follows on one that comes to something, if there is one. -/
def follow (p : RenewalPolicy) (turn : Turn) (attempt : Attempt) : Option Turn :=
  match turn.completion attempt with
  | none => none
  | some (_, .ok none) => none
  | some (ends, .ok (some lease)) => some ⟨ends + renewalWait p lease, 0⟩
  | some (ends, .error _) =>
    if turn.failures < p.maxRetries.toNat then
      some ⟨ends + retryWait p turn.failures, turn.failures + 1⟩
    else none

/-- The logins from a first one on, as far as they go. -/
def timeline (p : RenewalPolicy) (attempts : Nat → Attempt) (first : Turn) : Nat → Option Turn
  | 0 => some first
  | i + 1 => (timeline p attempts first i).bind fun turn => turn.follow p (attempts i)

/-- When the logins of a timeline begin. -/
def moments (p : RenewalPolicy) (attempts : Nat → Attempt) (first : Turn) (i : Nat) : Option Nat :=
  (timeline p attempts first i).map moment

/-- When the logins of a timeline end, and how. -/
def completions (p : RenewalPolicy) (attempts : Nat → Attempt) (first : Turn) (i : Nat) :
    Option (Nat × Except Failure (Option UInt64)) :=
  (timeline p attempts first i).bind fun turn => turn.completion (attempts i)

/-! ### Waits -/

theorem deadline_nextDelay_eq (now : Nat) (p : RenewalPolicy) (lease : UInt64) :
    deadline now (nextDelay lease p.buffer) = now + renewalWait p lease := by
  have hlongest : longestWait.toNanos = longest := by decide
  rw [deadline, toNanos_nextDelay, hlongest, renewalWait, Nat.max_comm]

/-- A renewal begins a second after the login before it, at the soonest. -/
theorem second_le_renewalWait (p : RenewalPolicy) (lease : UInt64) :
    nanosPerSecond ≤ renewalWait p lease := by
  have hlongest : nanosPerSecond ≤ longest := by decide
  rw [renewalWait]
  omega

theorem deadline_retryDelay (now : Nat) (p : RenewalPolicy) (failures : UInt32) :
    deadline now (Scheduler.retryDelay p failures) = now + retryWait p failures.toNat := by
  have hlongest : longestWait.toNanos = longest := by decide
  have hgreatest : longest ≤ Duration.greatest.toNanos := by decide
  rw [deadline, Scheduler.retryDelay, Backoff.delay_eq, Backoff.toNat_factor_standard, hlongest,
    retryWait]
  omega

/-- **What a worker does after a login is one step of the timeline.** Either both are over, or the
worker waits for what follows. -/
theorem afterLogin_eq (p : RenewalPolicy) {turn : Turn} {failures : UInt32} {attempt : Attempt}
    {ends : Nat} {outcome : Except Failure (Option UInt64)} (hf : failures.toNat = turn.failures)
    (hc : turn.completion attempt = some (ends, outcome)) :
    (Scheduler.afterLogin p ends failures outcome = (none : Option (Worker Flight)) ∧
      turn.follow p attempt = none) ∨
    ∃ due failures', Scheduler.afterLogin p ends failures outcome
        = some (⟨.timer due, failures'⟩ : Worker Flight) ∧
      turn.follow p attempt = some ⟨due, failures'.toNat⟩ ∧ ends ≤ due := by
  rw [follow, hc]
  cases outcome with
  | ok lease =>
    cases lease with
    | none => exact .inl ⟨rfl, rfl⟩
    | some lease =>
      refine .inr ⟨_, _, rfl, ?_, le_deadline ..⟩
      rw [deadline_nextDelay_eq]
      rfl
  | error f =>
    have hiff : p.maxRetries ≤ failures ↔ ¬ turn.failures < p.maxRetries.toNat := by
      rw [UInt32.le_iff_toNat_le, hf]
      omega
    by_cases hlt : turn.failures < p.maxRetries.toNat
    · have hgo : ¬ p.maxRetries ≤ failures := fun hle => hiff.mp hle hlt
      refine .inr ⟨_, _, if_neg hgo, ?_, le_deadline ..⟩
      have hword := p.maxRetries.toNat_lt
      have hone : (1 : UInt32).toNat = 1 := rfl
      have hnext : (failures + 1).toNat = turn.failures + 1 := by
        rw [UInt32.toNat_add, hf]
        omega
      simp only [if_pos hlt]
      rw [deadline_retryDelay, hnext, hf]
    · exact .inl ⟨if_pos (hiff.mpr hlt), if_neg hlt⟩

theorem le_of_completion {turn : Turn} {attempt : Attempt}
    {c : Nat × Except Failure (Option UInt64)} (h : turn.completion attempt = some c) :
    turn.moment ≤ c.1 := by
  obtain ⟨outcome, -, rfl⟩ := Option.map_eq_some_iff.mp h
  exact Nat.le_add_right ..

/-- A login that follows on another begins after its end. -/
theorem le_of_follow {p : RenewalPolicy} {turn next : Turn} {attempt : Attempt}
    (h : turn.follow p attempt = some next) :
    ∃ ends outcome, turn.completion attempt = some (ends, outcome) ∧ ends ≤ next.moment := by
  rw [follow] at h
  cases hc : turn.completion attempt with
  | none =>
    rw [hc] at h
    cases h
  | some c =>
    obtain ⟨ends, outcome⟩ := c
    refine ⟨ends, outcome, rfl, ?_⟩
    rw [hc] at h
    cases outcome with
    | ok lease =>
      cases lease with
      | none => cases h
      | some lease =>
        obtain rfl := Option.some.inj h
        exact Nat.le_add_right ..
    | error f =>
      simp only at h
      split at h
      · obtain rfl := Option.some.inj h
        exact Nat.le_add_right ..
      · cases h

/-- In a timeline every login begins after the end of all before it. -/
theorem timeline_of_lt {p : RenewalPolicy} {attempts : Nat → Attempt} {first b : Turn} {i j : Nat}
    (hij : i < j) (h : timeline p attempts first j = some b) :
    ∃ a c, timeline p attempts first i = some a ∧ a.completion (attempts i) = some c ∧
      c.1 ≤ b.moment := by
  induction j generalizing b with
  | zero => exact absurd hij (Nat.not_lt_zero i)
  | succ j ih =>
    obtain ⟨turn, hturn, hfollow⟩ := Option.bind_eq_some_iff.mp h
    obtain ⟨ends, outcome, hc, hle⟩ := le_of_follow hfollow
    obtain hlt | rfl := Nat.lt_succ_iff_lt_or_eq.mp hij
    · obtain ⟨a, c, ha, hac, hbefore⟩ := ih hlt hturn
      exact ⟨a, c, ha, hac, Nat.le_trans hbefore (Nat.le_trans (le_of_completion hc) hle)⟩
    · exact ⟨turn, _, hturn, hc, hle⟩

theorem timeline_of_le {p : RenewalPolicy} {attempts : Nat → Attempt} {first b : Turn} {i j : Nat}
    (hij : i ≤ j) (h : timeline p attempts first j = some b) :
    ∃ a, timeline p attempts first i = some a ∧ a.moment ≤ b.moment := by
  obtain hlt | rfl := Nat.lt_or_eq_of_le hij
  · obtain ⟨a, c, ha, hc, hle⟩ := timeline_of_lt hlt h
    exact ⟨a, ha, Nat.le_trans (le_of_completion hc) hle⟩
  · exact ⟨b, h, Nat.le_refl _⟩

/-- The next event of a worker with a login under way is the end of the login. -/
theorem nextAt_eq (turn : Turn) (attempt : Attempt) (failures : UInt32) :
    Worker.nextAt ⟨.login ⟨turn.moment + attempt.takes, attempt.outcome⟩, failures⟩
      = (turn.completion attempt).map Prod.fst := by
  rw [Worker.nextAt, completion]
  cases attempt.outcome <;> rfl

end Turn

namespace Simulation

variable {s s' : Simulation} {past new : List Notice} {moment k t : Nat} {p : RenewalPolicy}
  {attempts : Nat → Attempt} {first : Turn}

/-! ### A run as planned -/

/-- A simulation has its policy, reports failures if it should, and the logins to come are those of
a plan that has been followed so far. -/
structure Planned (p : RenewalPolicy) (reports : Bool) (attempts : Nat → Attempt) (s : Simulation)
    (past : List Notice) : Prop where
  /-- The policy is as planned. -/
  policy : s.scheduler.policy = p
  /-- Failures are reported if they are to be. -/
  reporting : s.scheduler.reports = reports
  /-- The logins to come are those of the plan that have not begun. -/
  script : ∀ i, (s.script[i]?).getD s.afterwards = attempts ((begins past).length + i)

namespace Planned

variable {reports : Bool}

theorem acts {x : Step} (h : Planned p reports attempts s past) (hacts : Acts s x s' new) :
    Planned p reports attempts s' (past ++ new) := by
  cases hacts with
  | rests => rwa [List.append_nil]
  | spawns =>
    obtain ⟨hpolicy, hreports⟩ := Scheduler.policy_spawn s.scheduler (x.due s)
    rw [List.append_nil]
    exact ⟨hpolicy.trans h.policy, hreports.trans h.reporting, h.script⟩
  | releases =>
    obtain ⟨hpolicy, hreports⟩ := Scheduler.policy_release s.scheduler
    refine ⟨hpolicy.trans h.policy, hreports.trans h.reporting, ?_⟩
    rw [begins_append, begins_gaveUp, List.append_nil]
    exact h.script

/-- The next login is the next one of the plan. -/
theorem head (h : Planned p reports attempts s past) :
    s.script.headD s.afterwards = attempts (begins past).length := by
  have hnext := h.script 0
  rw [Nat.add_zero] at hnext
  rw [← hnext]
  cases s.script <;> rfl

theorem happening (h : Planned p reports attempts s past) (hh : Happening s moment k s' new) :
    Planned p reports attempts s' (past ++ new) := by
  cases hh with
  | begins hw =>
    refine ⟨h.policy, h.reporting, fun i => ?_⟩
    have hnext := h.script (i + 1)
    have hbegins : begins [.began (max s.now moment)] = [max s.now moment] := rfl
    rw [begins_append, hbegins, List.length_append, List.length_singleton, Nat.add_assoc,
      Nat.add_comm 1 i, ← hnext]
    cases s.script <;> rfl
  | ends hw =>
    refine ⟨h.policy, h.reporting, ?_⟩
    rw [begins_append, begins_ended, List.append_nil]
    exact h.script

/-- What is planned from now on. -/
theorem later (h : Planned p reports attempts s past) :
    Planned p reports (fun i => attempts ((begins past).length + i)) s [] := by
  refine ⟨h.policy, h.reporting, fun i => ?_⟩
  rw [h.script i, begins_nil, List.length_nil, Nat.zero_add]

end Planned

/-- The logins of a simulation, in order. -/
def attempt (script : List Attempt) (afterwards : Attempt) (i : Nat) : Attempt :=
  (script[i]?).getD afterwards

/-- **Every run keeps to its policy and its script.** -/
theorem planned_run (policy : RenewalPolicy) (reports : Bool) (script : List Attempt)
    (afterwards : Attempt) (steps : List Step) :
    Planned policy reports (attempt script afterwards)
      ((initial policy reports script afterwards).run steps).1
      ((initial policy reports script afterwards).run steps).2 := by
  refine run_induction (Planned policy reports (attempt script afterwards))
    (fun ha h => h.acts ha) (fun hh h => h.happening hh)
    (fun h => ⟨h.policy, h.reporting, h.script⟩) ⟨rfl, rfl, fun i => ?_⟩ steps
  rw [begins_nil, List.length_nil, Nat.zero_add]
  rfl

/-! ### A run on time -/

/-- The failures that are reported of some logins. -/
def failuresOf (ended : List (Nat × Except Failure (Option UInt64))) : List (Nat × Failure) :=
  ended.filterMap fun e =>
    match e.2 with
    | .error f => some (e.1, f)
    | .ok _ => none

/-- Where between two logins of the timeline the workers are, when so many have begun and so many
have ended. -/
inductive Stage (p : RenewalPolicy) (attempts : Nat → Attempt) (first : Turn) (s : Simulation)
    (begun ended : Nat) : Prop where
  /-- A worker waits for the next login. -/
  | waits {k due : Nat} {failures : UInt32}
    (hw : s.scheduler.worker? k = some ⟨.timer due, failures⟩)
    (ht : Turn.timeline p attempts first begun = some ⟨due, failures.toNat⟩)
    (he : ended = begun) (hnow : s.now ≤ due)
  /-- A worker has the last login under way. -/
  | flies {k : Nat} {turn : Turn} {failures : UInt32}
    (hw : s.scheduler.worker? k = some
      ⟨.login ⟨turn.moment + (attempts ended).takes, (attempts ended).outcome⟩, failures⟩)
    (ht : Turn.timeline p attempts first ended = some turn) (hf : failures.toNat = turn.failures)
    (he : begun = ended + 1)
    (hnow : ∀ ends outcome, turn.completion (attempts ended) = some (ends, outcome) → s.now ≤ ends)
  /-- Nobody is alive, and no login is to come. -/
  | rests (hw : ∀ k, s.scheduler.worker? k = none)
    (ht : Turn.timeline p attempts first begun = none) (he : ended = begun)

/-- A run has come as far as its timeline. -/
structure OnTime (p : RenewalPolicy) (reports : Bool) (attempts : Nat → Attempt) (first : Turn)
    (s : Simulation) (past : List Notice) : Prop where
  /-- No two workers are alive. -/
  sound : Sound s
  /-- The logins to come are those of the timeline. -/
  planned : Planned p reports attempts s past
  /-- The logins that began are the first ones of the timeline. -/
  begun : Leads (begins past) (Turn.moments p attempts first) (· ≤ s.now)
  /-- So are those that ended. -/
  ended : Leads (endings past) (Turn.completions p attempts first) (·.1 ≤ s.now)
  /-- Every failure was reported, once, in order. -/
  told : reported past = if reports then failuresOf (endings past) else []
  /-- The workers are where they should be. -/
  stage : Stage p attempts first s (begins past).length (endings past).length

theorem Stage.of_timer {begun ended due : Nat} {failures : UInt32}
    (h : Stage p attempts first s begun ended) (hsole : s.scheduler.Sole)
    (hw : s.scheduler.worker? k = some ⟨.timer due, failures⟩) :
    Turn.timeline p attempts first begun = some ⟨due, failures.toNat⟩ ∧ ended = begun ∧
      s.now ≤ due := by
  cases h with
  | waits hw' ht he hnow =>
    obtain rfl := hsole.unique hw hw'
    cases hw.symm.trans hw'
    exact ⟨ht, he, hnow⟩
  | flies hw' =>
    obtain rfl := hsole.unique hw hw'
    cases hw.symm.trans hw'
  | rests hnone => cases (hnone k).symm.trans hw

theorem Stage.of_login {begun ended : Nat} {flight : Flight} {failures : UInt32}
    (h : Stage p attempts first s begun ended) (hsole : s.scheduler.Sole)
    (hw : s.scheduler.worker? k = some ⟨.login flight, failures⟩) :
    ∃ turn, Turn.timeline p attempts first ended = some turn ∧ failures.toNat = turn.failures ∧
      begun = ended + 1 ∧
      flight = ⟨turn.moment + (attempts ended).takes, (attempts ended).outcome⟩ ∧
      ∀ ends outcome, turn.completion (attempts ended) = some (ends, outcome) → s.now ≤ ends := by
  cases h with
  | waits hw' =>
    obtain rfl := hsole.unique hw hw'
    cases hw.symm.trans hw'
  | flies hw' ht hf he hnow =>
    obtain rfl := hsole.unique hw hw'
    cases hw.symm.trans hw'
    exact ⟨_, ht, hf, he, rfl, hnow⟩
  | rests hnone => cases (hnone k).symm.trans hw

/-- A timer goes off when the next login of the timeline is due. -/
theorem OnTime.of_timer {reports : Bool} (h : OnTime p reports attempts first s past)
    {failures : UInt32} (hw : s.scheduler.worker? k = some ⟨.timer moment, failures⟩) :
    OnTime p reports attempts first
      { s with
          now := max s.now moment
          scheduler := s.scheduler.put k (some ⟨.login
            ⟨max s.now moment + (s.script.headD s.afterwards).takes,
              (s.script.headD s.afterwards).outcome⟩, failures⟩)
          script := s.script.tail }
      (past ++ [.began (max s.now moment)]) := by
  obtain ⟨ht, he, hnow⟩ := h.stage.of_timer h.sound.sole hw
  have hplanned := h.planned.happening (.begins hw)
  have hmax : max s.now moment = moment := Nat.max_eq_right hnow
  have hbegins : begins (past ++ [.began moment]) = begins past ++ [moment] := begins_append ..
  have hendings : endings (past ++ [.began moment]) = endings past := by
    rw [endings_append]
    exact List.append_nil _
  have hreported : reported (past ++ [.began moment]) = reported past := by
    rw [reported_append]
    exact List.append_nil _
  rw [hmax, h.planned.head] at hplanned ⊢
  refine ⟨h.sound.put hw _ _ _, hplanned, ?_, ?_, ?_, ?_⟩
  · rw [hbegins]
    refine (h.begun.later hnow).push ?_ (decide_eq_true (Nat.le_refl moment))
    rw [Turn.moments, ht, Option.map_some]
  · rw [hendings]
    exact h.ended.later hnow
  · rw [hreported, hendings]
    exact h.told
  · rw [hbegins, hendings, List.length_append, List.length_singleton, he]
    refine .flies (Scheduler.worker?_put_self (Scheduler.lt_of_worker? hw) _) ht rfl rfl ?_
    exact fun ends outcome hc => Turn.le_of_completion hc

/-- A login ends as the timeline says, and what follows on it follows in the timeline. -/
theorem OnTime.of_login {reports : Bool} (h : OnTime p reports attempts first s past)
    {failures : UInt32} {outcome : Except Failure (Option UInt64)}
    (hw : s.scheduler.worker? k = some ⟨.login ⟨moment, some outcome⟩, failures⟩) :
    OnTime p reports attempts first
      { s with
          now := max s.now moment
          scheduler := s.scheduler.put k
            (Scheduler.afterLogin s.scheduler.policy (max s.now moment) failures outcome) }
      (past ++ (.ended (max s.now moment) outcome ::
        reportOf s.scheduler.reports (max s.now moment) outcome)) := by
  obtain ⟨turn, ht, hf, he, hflight, hnow⟩ := h.stage.of_login h.sound.sole hw
  have hc : turn.completion (attempts (endings past).length) = some (moment, outcome) := by
    rw [Turn.completion, ← (Flight.mk.inj hflight).2, (Flight.mk.inj hflight).1]
    rfl
  have hle := hnow _ _ hc
  have hmax : max s.now moment = moment := Nat.max_eq_right hle
  have hbegins : begins (past ++ (.ended moment outcome ::
      reportOf s.scheduler.reports moment outcome)) = begins past := by
    rw [begins_append, begins_ended, List.append_nil]
  have hendings : endings (past ++ (.ended moment outcome ::
      reportOf s.scheduler.reports moment outcome)) = endings past ++ [(moment, outcome)] := by
    rw [endings_append, endings_ended]
  have hnext : Turn.timeline p attempts first (begins past).length
      = turn.follow p (attempts (endings past).length) := by
    rw [he, Turn.timeline, ht, Option.bind_some]
  have hplanned := h.planned.happening (.ends hw)
  rw [hmax, h.planned.policy] at hplanned ⊢
  refine ⟨h.sound.put hw _ _ _, hplanned, ?_, ?_, ?_, ?_⟩
  · rw [hbegins]
    exact h.begun.later hle
  · rw [hendings]
    refine (h.ended.later hle).push ?_ (decide_eq_true (Nat.le_refl moment))
    rw [Turn.completions, ht, Option.bind_some, hc]
  · rw [hendings, reported_append, h.told, h.planned.reporting]
    cases outcome <;> cases reports <;> simp [failuresOf, reportOf, reported]
  · rw [hbegins, hendings, List.length_append, List.length_singleton, ← he]
    obtain ⟨hafter, hfollow⟩ | ⟨due, failures', hafter, hfollow, hdue⟩ := Turn.afterLogin_eq p hf hc
    · refine .rests (fun j => ?_) (hnext.trans hfollow) rfl
      rw [hafter, Option.eq_none_iff_forall_ne_some]
      intro w hj
      obtain ⟨hjk, hj⟩ := Scheduler.worker?_put_none hj
      exact hjk (h.sound.sole.unique hj hw)
    · rw [hafter]
      exact .waits (Scheduler.worker?_put_self (Scheduler.lt_of_worker? hw) _)
        (hnext.trans hfollow) rfl hdue

/-- **Every event is the one that comes next in the timeline.** -/
theorem OnTime.happening {reports : Bool} (h : OnTime p reports attempts first s past)
    (hh : Happening s moment k s' new) : OnTime p reports attempts first s' (past ++ new) := by
  cases hh with
  | begins hw => exact h.of_timer hw
  | ends hw => exact h.of_login hw

/-- Nothing happens before the next event. -/
theorem OnTime.wait {reports : Bool} (h : OnTime p reports attempts first s past)
    (hnext : ∀ moment k, s.next? = some (moment, k) → t < moment) :
    OnTime p reports attempts first { s with now := max s.now t } past := by
  have hlater : ∀ {k w e}, s.scheduler.worker? k = some w → w.nextAt = some e → s.now ≤ e →
      max s.now t ≤ e := by
    intro k w e hw he hnow
    obtain ⟨moment, j, hsoonest, hle⟩ := soonest_le hw he
    have hlt := hnext moment j hsoonest
    omega
  refine ⟨⟨h.sound.sole, h.sound.gone⟩, ⟨h.planned.policy, h.planned.reporting, h.planned.script⟩,
    h.begun.later (Nat.le_max_left ..), h.ended.later (Nat.le_max_left ..), h.told, ?_⟩
  cases h.stage with
  | waits hw ht he hnow => exact .waits hw ht he (hlater hw rfl hnow)
  | flies hw ht hf he hnow =>
    refine .flies hw ht hf he fun ends outcome hc => hlater hw ?_ (hnow ends outcome hc)
    rw [Turn.nextAt_eq, hc]
    rfl
  | rests hw ht he => exact .rests hw ht he

/-- Whatever is due happens as the timeline says. -/
theorem OnTime.runUntil {reports : Bool} (h : OnTime p reports attempts first s past) (t : Nat) :
    OnTime p reports attempts first (Simulation.runUntil t s).1
      (past ++ (Simulation.runUntil t s).2) :=
  runUntil_induction (OnTime p reports attempts first) (OnTime p reports attempts first)
    (fun hh _ _ h => h.happening hh) (fun hnext h => h.wait hnext) past h

/-! ### From a start on -/

/-- The first login of the worker that a step starts. -/
def Step.firstTurn (p : RenewalPolicy) (now : Nat) : Step → Turn
  | .startFrom (some lease) => ⟨now + Turn.renewalWait p lease, 0⟩
  | _ => ⟨now, 0⟩

theorem Step.due_eq (x : Step) (s : Simulation) :
    (⟨x.due s, (0 : UInt32).toNat⟩ : Turn) = x.firstTurn s.scheduler.policy s.now := by
  cases x with
  | startFrom lease =>
    cases lease with
    | none => rfl
    | some lease =>
      rw [Step.due, Turn.deadline_nextDelay_eq]
      rfl
  | _ => rfl

theorem Step.le_due (x : Step) (s : Simulation) : s.now ≤ x.due s := by
  cases x with
  | startFrom lease =>
    cases lease with
    | none => exact Nat.le_refl _
    | some lease => exact le_deadline ..
  | _ => exact Nat.le_refl _

/-- A timeline begins with the start of a worker. -/
theorem OnTime.of_start {reports : Bool} {x : Step} (hsound : Sound s)
    (hplanned : Planned p reports attempts s []) (hp : s.present = true)
    (hs : s.scheduler.isRunning = false) (hx : x.isStart = true) (hacts : Acts s x s' new) :
    OnTime p reports attempts (x.firstTurn p s.now) s' new := by
  have hsound' := hsound.acts hacts
  have hplanned' := hplanned.acts hacts
  cases hacts with
  | rests hrests => exact absurd (hs.symm.trans ((hrests hp).2 hx)) nofun
  | spawns =>
    refine ⟨hsound', hplanned', leads_nil _ _, leads_nil _ _, by cases reports <;> rfl, ?_⟩
    have hlast := Scheduler.worker?_spawn hsound.sole hs (x.due s)
      s.scheduler.release.1.workers.length
    rw [if_pos rfl] at hlast
    refine .waits hlast ?_ rfl ?_
    · rw [Step.due_eq, hplanned.policy]
      rfl
    · exact x.le_due s
  | releases _ hend => exact absurd (hx.symm.trans (Step.isStart_of_isEnd hend)) nofun

/-- Whether some steps leave a worker to itself: none is an end, and a start comes only while it is
alive. -/
def undisturbed (s : Simulation) : List Step → Bool
  | [] => true
  | x :: rest =>
    !x.isEnd && (!x.isStart || s.scheduler.isRunning) && undisturbed (s.step x).1 rest

/-- What is done with a scheduler that runs has no influence on it, short of its end. -/
theorem OnTime.step {reports : Bool} {x : Step} (h : OnTime p reports attempts first s past)
    (hend : x.isEnd = false) (hstart : x.isStart = true → s.scheduler.isRunning = true) :
    OnTime p reports attempts first (s.step x).1 (past ++ (s.step x).2) := by
  have hacted : ∀ {s' new}, Acts s x s' new → OnTime p reports attempts first s' (past ++ new) := by
    intro s' new hacts
    cases hacts with
    | rests => rwa [List.append_nil]
    | spawns _ hs hx => exact absurd (hs.symm.trans (hstart hx)) nofun
    | releases _ hx => exact absurd (hend.symm.trans hx) nofun
  rw [step_eq, ← List.append_assoc]
  exact (hacted (acts_act s x)).runUntil _

theorem OnTime.run {reports : Bool} {rest : List Step}
    (h : OnTime p reports attempts first s past) (hrest : s.undisturbed rest = true) :
    OnTime p reports attempts first (s.run rest).1 (past ++ (s.run rest).2) := by
  induction rest generalizing s past with
  | nil =>
    rw [Simulation.run, List.append_nil]
    exact h
  | cons x rest ih =>
    rw [undisturbed, Bool.and_eq_true, Bool.and_eq_true, Bool.not_eq_true', Bool.or_eq_true,
      Bool.not_eq_true'] at hrest
    obtain ⟨⟨hend, hstart⟩, hrest⟩ := hrest
    rw [run_cons, ← List.append_assoc]
    refine ih (h.step hend fun hx => ?_) hrest
    rw [hx] at hstart
    exact hstart.resolve_left Bool.true_eq_false.mp

/-! ### What the timeline tells -/

/-- A login that has not begun lies in the future. -/
theorem OnTime.lt_moment {reports : Bool} (h : OnTime p reports attempts first s past)
    (hsettled : Settled s) {i : Nat} (hi : (begins past).length ≤ i) {turn : Turn}
    (ht : Turn.timeline p attempts first i = some turn) : s.now < turn.moment := by
  cases h.stage with
  | waits hw hnext =>
    obtain ⟨a, ha, hle⟩ := Turn.timeline_of_le hi ht
    cases ha.symm.trans hnext
    exact Nat.lt_of_lt_of_le (hsettled _ _ _ hw rfl) hle
  | flies hw hlast hf he =>
    have hlt : (endings past).length < i := by omega
    obtain ⟨a, c, ha, hc, hle⟩ := Turn.timeline_of_lt hlt ht
    cases ha.symm.trans hlast
    refine Nat.lt_of_lt_of_le (hsettled _ _ c.1 hw ?_) hle
    rw [Turn.nextAt_eq, hc]
    rfl
  | rests _ hnone =>
    obtain ⟨a, ha, -⟩ := Turn.timeline_of_le hi ht
    cases ha.symm.trans hnone

/-- So does the end of a login that has not ended. -/
theorem OnTime.lt_completion {reports : Bool} (h : OnTime p reports attempts first s past)
    (hsettled : Settled s) {i : Nat} (hi : (endings past).length ≤ i) {turn : Turn}
    (ht : Turn.timeline p attempts first i = some turn)
    {c : Nat × Except Failure (Option UInt64)} (hc : turn.completion (attempts i) = some c) :
    s.now < c.1 := by
  by_cases hbegun : (begins past).length ≤ i
  · exact Nat.lt_of_lt_of_le (h.lt_moment hsettled hbegun ht) (Turn.le_of_completion hc)
  · cases h.stage with
    | waits _ _ he => omega
    | flies hw hlast hf he =>
      obtain rfl : i = (endings past).length := by omega
      cases ht.symm.trans hlast
      refine hsettled _ _ c.1 hw ?_
      rw [Turn.nextAt_eq, hc]
      rfl
    | rests _ _ he => omega

/-- The logins that have begun are those of the timeline up to now. -/
theorem OnTime.begins_eq {reports : Bool} (h : OnTime p reports attempts first s past)
    (hsettled : Settled s) (i : Nat) :
    (begins past)[i]? = (Turn.moments p attempts first i).filter (· ≤ s.now) := by
  refine h.begun.getElem?_eq (fun i moment hi hat => ?_) i
  obtain ⟨turn, ht, rfl⟩ := Option.map_eq_some_iff.mp hat
  exact decide_eq_false (Nat.not_le_of_lt (h.lt_moment hsettled hi ht))

/-- The logins that have ended are those that end by now. -/
theorem OnTime.endings_eq {reports : Bool} (h : OnTime p reports attempts first s past)
    (hsettled : Settled s) (i : Nat) :
    (endings past)[i]? = (Turn.completions p attempts first i).filter (·.1 ≤ s.now) := by
  refine h.ended.getElem?_eq (fun i c hi hat => ?_) i
  obtain ⟨turn, ht, hc⟩ := Option.bind_eq_some_iff.mp hat
  exact decide_eq_false (Nat.not_le_of_lt (h.lt_completion hsettled hi ht hc))

/-- A worker that is left to itself is on time, and nothing due is left undone. -/
theorem onTime_run {policy : RenewalPolicy} {reports : Bool} {script : List Attempt}
    {afterwards : Attempt} {before : List Step}
    (hrun : (initial policy reports script afterwards).run before = (s, past))
    {x : Step} {rest : List Step} (hidle : s.isRunning = some false) (hstart : x.isStart = true)
    (hrest : (s.step x).1.undisturbed rest = true) :
    OnTime policy reports (fun i => attempt script afterwards ((begins past).length + i))
      (x.firstTurn policy s.now) (s.run (x :: rest)).1 (s.run (x :: rest)).2 ∧
      Settled (s.run (x :: rest)).1 := by
  have hplanned := planned_run policy reports script afterwards before
  have hsound := sound_run (sound_initial policy reports script afterwards) before
  rw [hrun] at hplanned hsound
  obtain ⟨hp, hs⟩ : s.present = true ∧ s.scheduler.isRunning = false := by
    rw [isRunning] at hidle
    split at hidle
    · exact ⟨‹_›, Option.some.inj hidle⟩
    · cases hidle
  have hfirst := OnTime.of_start hsound hplanned.later hp hs hstart (acts_act s x)
  exact ⟨(hfirst.runUntil (s.horizon x)).run hrest, settled_run (settled_step s x) rest⟩

/-- **The logins after a start are the timeline.** However a run came to where a scheduler is there
and does not run, and in whatever portions time passes from the start on, the logins that have begun
at any moment until the worker is disturbed are those of the timeline up to then. Each ends when and
how the script says, and every failure is reported once, in order. -/
theorem renewal_timeline {policy : RenewalPolicy} {reports : Bool} {script : List Attempt}
    {afterwards : Attempt} {before : List Step}
    (hrun : (initial policy reports script afterwards).run before = (s, past))
    {x : Step} {rest : List Step} (hidle : s.isRunning = some false) (hstart : x.isStart = true)
    (hrest : (s.step x).1.undisturbed rest = true) :
    let attempts := fun i => attempt script afterwards ((begins past).length + i)
    let first := x.firstTurn policy s.now
    let later := s.run (x :: rest)
    (∀ i, (begins later.2)[i]? =
        (Turn.moments policy attempts first i).filter (· ≤ later.1.now)) ∧
      (∀ i, (endings later.2)[i]? =
        (Turn.completions policy attempts first i).filter (·.1 ≤ later.1.now)) ∧
      reported later.2 = if reports then failuresOf (endings later.2) else [] := by
  have hplanned := planned_run policy reports script afterwards before
  have hsound := sound_run (sound_initial policy reports script afterwards) before
  rw [hrun] at hplanned hsound
  obtain ⟨hp, hs⟩ : s.present = true ∧ s.scheduler.isRunning = false := by
    rw [isRunning] at hidle
    split at hidle
    · exact ⟨‹_›, Option.some.inj hidle⟩
    · cases hidle
  have hfirst := OnTime.of_start hsound hplanned.later hp hs hstart (acts_act s x)
  have hlater := (hfirst.runUntil (s.horizon x)).run hrest
  have hsettled := settled_run (settled_step s x) rest
  exact ⟨hlater.begins_eq hsettled, hlater.endings_eq hsettled, hlater.told⟩

/-- The logins of a server that is back after eleven seconds. -/
def backAgain : List Attempt :=
  [⟨0, some (.error ⟨.network, "gone"⟩)⟩, ⟨0, some (.error ⟨.network, "gone"⟩)⟩,
    ⟨0, some (.error ⟨.network, "gone"⟩)⟩, ⟨1, some (.ok (some 90))⟩]

/-- A scheduler whose worker was over after one repetition. -/
def givenUpOnce : Simulation × List Notice :=
  (initial { RenewalPolicy.usual with maxRetries := 1 } true backAgain ⟨0, none⟩).run
    [.start, .sleep (6 * nanosPerSecond)]

/-- Started again it repeats its login after five seconds and renews the token a minute later,
although it is started once more in between. -/
theorem renewal_timeline_restarted :
    (begins (givenUpOnce.1.run [.start, .sleep (9 * nanosPerSecond), .start,
      .sleep (90 * nanosPerSecond)]).2)[2]? = some (71 * nanosPerSecond + 1) := by
  have hrun : (initial { RenewalPolicy.usual with maxRetries := 1 } true backAgain ⟨0, none⟩).run
      [.start, .sleep (6 * nanosPerSecond)] = (givenUpOnce.1, givenUpOnce.2) := rfl
  have hidle : givenUpOnce.1.isRunning = some false := by decide +kernel
  have hrest : (givenUpOnce.1.step .start).1.undisturbed
      [.sleep (9 * nanosPerSecond), .start, .sleep (90 * nanosPerSecond)] = true := by
    decide +kernel
  have h := renewal_timeline (x := .start) hrun hidle rfl hrest
  exact (h.1 2).trans (by decide +kernel)

/-- A lease of more than thirty years is too long for a timer: the token is renewed after thirty
years. -/
theorem begins_of_longLease :
    begins ((initial .usual false [⟨0, some (.ok (some 1000000000))⟩] ⟨0, some (.ok none)⟩).run
      [.start, .sleep Turn.longest]).2 = [0, Turn.longest] ∧
    Turn.longest ≠ 0 + max nanosPerSecond
      (((1000000000 : UInt64).toNat - RenewalPolicy.usual.buffer.toNat) * nanosPerSecond) := by
  decide +kernel

end Simulation

end Renewal

end VaultTokens
