import VaultTokens.Backoff
import VaultTokens.Failure
import VaultTokens.Renewal.Timer
import VaultTokens.Settings.RenewalPolicy

/-!
# Renewal in the background

A scheduler renews a token through a worker. A worker waits for a timer or for a login that it has
under way, and that is all it ever does. When the timer goes off, a login begins; when the login
ends, the timer is set for the next renewal or, after a failure, for a repetition. Failures are
counted from the last success; when the policy allows no more of them, or when a token never
expires, the worker is over.

Workers have places in the order in which they were started, and the scheduler keeps the place of
the last one. It runs if the worker in that place is alive. Starting a scheduler that runs changes
nothing; otherwise the place that is kept is let go of and a new worker is started. To let go of a
place ends the worker in it and gives back the login that it had under way. Stopping is the same
without a new worker.

Nothing in these data keeps a second worker from being alive beside the one that is kept. `Sole`
says that there is none, and every operation preserves it.

## Main statements

* `sole_spawn`, `sole_release`, `sole_put` — no operation leaves two workers alive
* `spawn_of_isRunning`, `stop_of_idle` — what changes nothing
* `failures_afterLogin` — the count of failures stays within the policy
-/

namespace VaultTokens.Renewal

/-- What a worker waits for. -/
inductive Wait (Login : Type) where
  /-- A timer that goes off at a moment. -/
  | timer (due : Nat)
  /-- The end of a login. -/
  | login (underWay : Login)

/-- A worker that is alive. -/
structure Worker (Login : Type) where
  /-- What it waits for. -/
  wait : Wait Login
  /-- How many logins have failed since the last success. -/
  failures : UInt32

/-- A scheduler with its workers. -/
structure Scheduler (Login : Type) where
  /-- When and how often to renew. -/
  policy : RenewalPolicy
  /-- Whether failures are reported. -/
  reports : Bool
  /-- Every worker that was started, in order; nothing stands in the place of one that is over. -/
  workers : List (Option (Worker Login))
  /-- The place of the last worker, unless it was stopped. -/
  kept : Option Nat

variable {Login : Type}

namespace Worker

/-- When the timer goes off, if the worker waits for it. -/
def due? (w : Worker Login) : Option Nat :=
  match w.wait with
  | .timer due => some due
  | .login _ => none

/-- The login under way, if the worker waits for it. -/
def underWay? (w : Worker Login) : Option Login :=
  match w.wait with
  | .timer _ => none
  | .login underWay => some underWay

end Worker

namespace Scheduler

/-- A scheduler before its first worker. -/
def idle (policy : RenewalPolicy) (reports : Bool) : Scheduler Login := ⟨policy, reports, [], none⟩

/-- The worker in a place, if it is alive. -/
def worker? (s : Scheduler Login) (k : Nat) : Option (Worker Login) := s.workers[k]?.join

/-- Whether the worker that is kept is alive. -/
def isRunning (s : Scheduler Login) : Bool := (s.kept.bind s.worker?).isSome

/-- The scheduler with something else in the place of a worker. -/
def put (s : Scheduler Login) (k : Nat) (w : Option (Worker Login)) : Scheduler Login :=
  { s with workers := s.workers.set k w }

/-- The place that is kept is let go of: the worker in it is over, and the login that it had under
way is given back. -/
def release (s : Scheduler Login) : Scheduler Login × Option Login :=
  match s.kept with
  | none => (s, none)
  | some k => ({ s.put k none with kept := none }, (s.worker? k).bind Worker.underWay?)

/-- The scheduler with a new worker whose timer is set, unless it runs; a login that is given up for
it is given back. -/
def spawn (s : Scheduler Login) (due : Nat) : Scheduler Login × Option Login :=
  if s.isRunning then (s, none)
  else
    let (s, lost) := s.release
    ({ s with workers := s.workers ++ [some ⟨.timer due, 0⟩], kept := some s.workers.length }, lost)

/-- Starts with a renewal at once. -/
def start (s : Scheduler Login) (now : Nat) : Scheduler Login × Option Login := s.spawn now

/-- Starts for a token that was just issued; for one that never expires there is nothing to do. -/
def startFrom (s : Scheduler Login) (now : Nat) (lease : Option UInt64) :
    Scheduler Login × Option Login :=
  match lease with
  | some lease => s.spawn (deadline now (nextDelay lease s.policy.buffer))
  | none => (s, none)

/-- Stops; the login that was under way is given back. -/
def stop (s : Scheduler Login) : Scheduler Login × Option Login := s.release

/-- The first worker whose timer goes off by a moment. -/
def dueBy? (s : Scheduler Login) (moment : Nat) : Option Nat :=
  s.workers.findIdx? fun w => (w.bind Worker.due?).any (· ≤ moment)

/-- The logins under way, each with the place of its worker. -/
def underWay (s : Scheduler Login) : List (Nat × Login) :=
  s.workers.zipIdx.filterMap fun x => (x.1.bind Worker.underWay?).map (x.2, ·)

/-- The timer of a worker has gone off and a login has begun. -/
def loginBegun (s : Scheduler Login) (k : Nat) (underWay : Login) : Scheduler Login :=
  match s.worker? k with
  | none => s
  | some w => s.put k (some { w with wait := .login underWay })

/-- The wait before a login is repeated after so many earlier failures. -/
def retryDelay (p : RenewalPolicy) (failures : UInt32) : Duration :=
  Backoff.standard.delay p.retryDelay failures

/-- The worker after its login has ended at `now`, with the lease of the token that was issued. -/
def afterLogin (p : RenewalPolicy) (now : Nat) (failures : UInt32) :
    Except Failure (Option UInt64) → Option (Worker Login)
  | .ok (some lease) => some ⟨.timer (deadline now (nextDelay lease p.buffer)), 0⟩
  | .ok none => none
  | .error _ =>
    if p.maxRetries ≤ failures then none
    else some ⟨.timer (deadline now (retryDelay p failures)), failures + 1⟩

/-- The login of a worker has ended; a failure is reported if failures are. -/
def loginEnded (s : Scheduler Login) (k now : Nat) (outcome : Except Failure (Option UInt64)) :
    Scheduler Login × Option Failure :=
  match s.worker? k with
  | none => (s, none)
  | some w =>
    (s.put k (afterLogin s.policy now w.failures outcome),
      match outcome with
      | .error f => if s.reports then some f else none
      | .ok _ => none)

/-! ## Places -/

theorem worker?_eq (s : Scheduler Login) (k : Nat) : s.worker? k = s.workers[k]?.join := rfl

theorem lt_of_worker? {s : Scheduler Login} {k : Nat} {w : Worker Login}
    (h : s.worker? k = some w) : k < s.workers.length := by
  refine Nat.lt_of_not_le fun hge => ?_
  rw [worker?_eq, List.getElem?_eq_none hge] at h
  cases h

theorem worker?_put_self {s : Scheduler Login} {k : Nat} (hk : k < s.workers.length)
    (w : Option (Worker Login)) : (s.put k w).worker? k = w := by
  simp [worker?_eq, put, hk]

theorem worker?_put_of_ne (s : Scheduler Login) {j k : Nat} (w : Option (Worker Login))
    (h : j ≠ k) : (s.put k w).worker? j = s.worker? j := by
  rw [worker?_eq, worker?_eq, put, List.getElem?_set_ne (Ne.symm h)]

/-- Emptying a place leaves no worker there, and every other one where it was. -/
theorem worker?_put_none {s : Scheduler Login} {j k : Nat} {w : Worker Login}
    (h : (s.put k none).worker? j = some w) : j ≠ k ∧ s.worker? j = some w := by
  have hjk : j ≠ k := by
    rintro rfl
    have hj := lt_of_worker? h
    rw [worker?_put_self (by simpa [put] using hj)] at h
    cases h
  exact ⟨hjk, by rwa [worker?_put_of_ne s none hjk] at h⟩

/-! ## One worker at most -/

/-- A worker that is alive is the one that is kept. -/
def Sole (s : Scheduler Login) : Prop := ∀ k w, s.worker? k = some w → s.kept = some k

theorem sole_idle (policy : RenewalPolicy) (reports : Bool) :
    (idle policy reports : Scheduler Login).Sole := by
  intro k w h
  simp [worker?_eq, idle] at h

theorem Sole.unique {s : Scheduler Login} (h : s.Sole) {j k : Nat} {v w : Worker Login}
    (hj : s.worker? j = some v) (hk : s.worker? k = some w) : j = k :=
  Option.some.inj ((h j v hj).symm.trans (h k w hk))

theorem sole_put {s : Scheduler Login} (h : s.Sole) {k : Nat} {v : Worker Login}
    (hk : s.worker? k = some v) (w : Option (Worker Login)) : (s.put k w).Sole := by
  intro j u hj
  by_cases hjk : j = k
  · subst hjk
    exact h j v hk
  · rw [worker?_put_of_ne s w hjk] at hj
    exact h j u hj

/-- Once the place that is kept is let go of, nobody is alive. -/
theorem worker?_release {s : Scheduler Login} (h : s.Sole) (k : Nat) :
    s.release.1.worker? k = none := by
  rw [Option.eq_none_iff_forall_ne_some]
  intro w hw
  rw [release] at hw
  split at hw
  · rename_i hkept
    rw [h k w hw] at hkept
    cases hkept
  · rename_i j hkept
    obtain ⟨hkj, hk⟩ := worker?_put_none hw
    rw [h k w hk] at hkept
    exact hkj (Option.some.inj hkept)

theorem sole_release {s : Scheduler Login} (h : s.Sole) : s.release.1.Sole := by
  intro k w hk
  rw [worker?_release h k] at hk
  cases hk

/-- A scheduler runs exactly if a worker is alive in some place. -/
theorem isRunning_iff {s : Scheduler Login} (h : s.Sole) :
    s.isRunning = true ↔ ∃ k w, s.worker? k = some w := by
  rw [isRunning, Option.isSome_iff_exists]
  constructor
  · rintro ⟨w, hw⟩
    obtain ⟨k, -, hk⟩ := Option.bind_eq_some_iff.mp hw
    exact ⟨k, w, hk⟩
  · rintro ⟨k, w, hk⟩
    exact ⟨w, by rw [h k w hk]; exact hk⟩

/-! ## Starting and stopping -/

theorem spawn_of_isRunning {s : Scheduler Login} (h : s.isRunning = true) (due : Nat) :
    s.spawn due = (s, none) := by
  simp [spawn, h]

theorem start_of_isRunning {s : Scheduler Login} (h : s.isRunning = true) (now : Nat) :
    s.start now = (s, none) :=
  spawn_of_isRunning h now

theorem startFrom_of_isRunning {s : Scheduler Login} (h : s.isRunning = true) (now : Nat)
    (lease : Option UInt64) : s.startFrom now lease = (s, none) := by
  cases lease with
  | none => rfl
  | some lease => exact spawn_of_isRunning h _

/-- Letting go of a place in which nobody is alive gives no login back. -/
theorem release_of_not_isRunning {s : Scheduler Login} (h : s.isRunning = false) :
    s.release.2 = none := by
  rw [release]
  split
  · rfl
  · rename_i k hkept
    have hk : s.worker? k = none := by simpa [isRunning, hkept] using h
    simp [hk]

/-- A new worker is the only one, in the last place, and no login is given up for it. -/
theorem spawn_of_not_isRunning {s : Scheduler Login} (h : s.isRunning = false) (due : Nat) :
    (s.spawn due).2 = none ∧ (s.spawn due).1.kept = some s.release.1.workers.length ∧
      (s.spawn due).1.workers = s.release.1.workers ++ [some ⟨.timer due, 0⟩] := by
  simp [spawn, h, release_of_not_isRunning h]

theorem worker?_spawn {s : Scheduler Login} (hsole : s.Sole) (h : s.isRunning = false)
    (due k : Nat) : (s.spawn due).1.worker? k =
      if k = s.release.1.workers.length then some ⟨.timer due, 0⟩ else none := by
  rw [worker?_eq, (spawn_of_not_isRunning h due).2.2, List.getElem?_append]
  split
  · rename_i hk
    rw [if_neg (Nat.ne_of_lt hk)]
    exact worker?_release hsole k
  · rename_i hk
    by_cases hlast : k = s.release.1.workers.length
    · simp [hlast]
    · rw [if_neg hlast, List.getElem?_eq_none (by simp; omega)]
      rfl

theorem sole_spawn {s : Scheduler Login} (h : s.Sole) (due : Nat) : (s.spawn due).1.Sole := by
  by_cases hs : s.isRunning = true
  · rwa [spawn_of_isRunning hs]
  · intro k w hk
    rw [Bool.not_eq_true] at hs
    rw [worker?_spawn h hs] at hk
    split at hk
    · rename_i hlast
      rw [(spawn_of_not_isRunning hs due).2.1, hlast]
    · cases hk

/-- Workers come and go; the policy stays. -/
theorem policy_release (s : Scheduler Login) :
    s.release.1.policy = s.policy ∧ s.release.1.reports = s.reports := by
  rw [release]
  split <;> exact ⟨rfl, rfl⟩

theorem policy_spawn (s : Scheduler Login) (due : Nat) :
    (s.spawn due).1.policy = s.policy ∧ (s.spawn due).1.reports = s.reports := by
  rw [spawn]
  split
  · exact ⟨rfl, rfl⟩
  · exact policy_release s

theorem isRunning_stop (s : Scheduler Login) : s.stop.1.isRunning = false := by
  rw [stop, release]
  split <;> simp_all [isRunning]

/-- Stopping ends nothing where nobody is alive. -/
theorem stop_of_idle {s : Scheduler Login} (h : s.isRunning = false) : s.stop.2 = none :=
  release_of_not_isRunning h

/-- A worker that repeats a login has counted one failure more, and no more than the policy
allows. -/
theorem failures_afterLogin {p : RenewalPolicy} {now : Nat} {failures : UInt32}
    {outcome : Except Failure (Option UInt64)} {w : Worker Login}
    (h : afterLogin p now failures outcome = some w) :
    w.failures.toNat ≤ p.maxRetries.toNat ∧
      (w.failures = 0 ∨ w.failures.toNat = failures.toNat + 1) := by
  simp only [afterLogin] at h
  split at h
  · simp only [Option.some.injEq] at h
    subst h
    simp
  · cases h
  · split at h
    · cases h
    · rename_i hlt
      simp only [Option.some.injEq] at h
      subst h
      rw [UInt32.le_iff_toNat_le] at hlt
      have hmax := p.maxRetries.toNat_lt
      have hone : (1 : UInt32).toNat = 1 := rfl
      have hnext : (failures + 1).toNat = failures.toNat + 1 := by
        rw [UInt32.toNat_add]
        omega
      refine ⟨?_, Or.inr hnext⟩
      change (failures + 1).toNat ≤ p.maxRetries.toNat
      omega

end Scheduler

end VaultTokens.Renewal
