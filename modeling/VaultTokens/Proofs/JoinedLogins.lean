import VaultTokens.Proofs.AttendedCalls
import VaultTokens.Proofs.FreshLogins
import VaultTokens.Proofs.LeaseExpiry
import VaultTokens.Renewal.Scheduler

/-!
# What a login returns that joins another one

A login that waited while another call exchanged something takes over its result. That result is not
kept: what is kept is the lease, with the time at which the exchange was recorded and the time at
which it expires. The login returns the token of the lease and counts the seconds between the two
times, so that what it says of the lease has gone from seconds to an instant and back.

Both ways are exact where the calendar has the instant and no leap second is in between. A lease
that ends behind the calendar counts as one that never expires. The call that performed the exchange
returns the seconds as the server gave them; a login that joins it returns none, and a scheduler
that relies on it has nothing to renew.

## Main results

* `Lease.issued_grant`, `Lease.lease_issued_grant` — a lease gives back what it was granted for
* `Lease.expiresAt_grant_of_leap`, `Lease.lease_issued_grant_of_leap` — in a leap second it ends one
  second early, and gives back one second less at most
* `takenOver_grant` — what a login makes of an exchange that it joins
* `concludes_run` — a login whose outcome is known answers with it
* `answers_run` — who has recorded an exchange answers with its outcome
* `joined_logins` — what a login returns that joins another one, in any run
-/

namespace VaultTokens

/-! ### From seconds to an instant and back -/

namespace Timestamp

variable {t u : Timestamp} {n : Int}

/-- From within a leap second a way of some seconds forward is one second short. -/
theorem shift?_of_leap (ht : t.isLeap = true) (hn : secondNanos ≤ n) :
    t.shift? n = ofNanos? (t.nanos + (n - secondNanos)) := by
  have hpast : 2000000000 ≤ t.subsecond + n := by
    rw [isLeap_iff] at ht
    rw [secondNanos] at hn
    omega
  rw [shift?_onward ht hpast, Int.add_sub_assoc]

theorem shift?_zero_of_leap (ht : t.isLeap = true) : t.shift? 0 = some t := by
  have hleap := isLeap_iff.mp ht
  have hlt := t.subsecond_lt
  rw [shift?_within ht (by omega) (by omega), Int.add_zero, Int.toNat_natCast, ofUnix?_eq_some_iff]
  exact ⟨rfl, rfl⟩

/-- An instant that is whole seconds behind a leap second is so many seconds from it or one more. -/
theorem secondsSince_of_leap (ht : t.isLeap = true) (hu : u.isLeap = false) {d : Nat}
    (h : u.nanos = t.nanos + d * secondNanos) :
    u.secondsSince t = d ∨ u.secondsSince t = d + 1 := by
  have hpos : secondNanos ≠ 0 := by decide
  by_cases hday : t.timeOfDay < u.timeOfDay
  · have hdiff : u.nanos - t.nanos + secondNanos = (d + 1) * secondNanos := by
      rw [Int.add_mul]
      omega
    right
    simp [secondsSince, ht, hday, hdiff, Int.mul_tdiv_cancel _ hpos]
  · have hdiff : u.nanos - t.nanos = d * secondNanos := by omega
    left
    simp [secondsSince, hu, hday, hdiff, Int.mul_tdiv_cancel _ hpos]

end Timestamp

namespace Lease

open Timestamp

variable {issued : Issued} {time : Timestamp}

theorem issued_grant_of_none (h : issued.lease = none) : (grant issued time).issued = issued := by
  obtain ⟨token, lease⟩ := issued
  obtain rfl : lease = none := h
  rfl

/-- **A lease that ends on the calendar gives back what it was granted for**, and so does one
without an end. -/
theorem issued_grant (htime : time.isLeap = false)
    (hends : ∀ d, issued.lease = some d → IsOnCalendar (time.nanos + d.toNat * secondNanos)) :
    (grant issued time).issued = issued := by
  cases hlease : issued.lease with
  | none => exact issued_grant_of_none hlease
  | some d =>
    obtain ⟨token, lease⟩ := issued
    obtain rfl : lease = some d := hlease
    obtain ⟨e, he, hnanos⟩ := hends d rfl
    rw [Lease.issued, duration_grant htime he hnanos]
    rfl

theorem lease_issued_of_expiresAt {l : Lease} (h : l.expiresAt = none) : l.issued.lease = none := by
  rw [Lease.issued, duration, h]
  rfl

/-- **A lease that ends behind the calendar gives back one that never expires.** -/
theorem lease_issued_grant {d : UInt64} (htime : time.isLeap = false)
    (hlease : issued.lease = some d)
    (hends : ¬IsOnCalendar (time.nanos + d.toNat * secondNanos)) :
    (grant issued time).issued.lease = none := by
  obtain ⟨token, lease⟩ := issued
  obtain rfl : lease = some d := hlease
  refine lease_issued_of_expiresAt ?_
  rw [expiresAt_grant_of_not_leap htime, ofNanos?_eq_none_iff]
  exact hends

private theorem toNat_pos {d : UInt64} (hd : d ≠ 0) : 0 < d.toNat :=
  Nat.pos_of_ne_zero fun h => hd (UInt64.toNat_inj.mp h)

/-- **From within a leap second a lease of some seconds expires one second early**, if the calendar
reaches that far. -/
theorem expiresAt_grant_of_leap {d : UInt64} (htime : time.isLeap = true) (token : String)
    (hd : d ≠ 0) :
    (grant ⟨token, some d⟩ time).expiresAt
      = ofNanos? (time.nanos + (d.toNat - 1) * secondNanos) := by
  have hpos := toNat_pos hd
  have hback : (d.toNat * secondNanos - secondNanos : Int) = (d.toNat - 1) * secondNanos := by
    rw [Int.sub_mul, Int.one_mul]
  rw [expiresAt_grant, Option.bind_some]
  cases hspan : Span.ofWord? d with
  | some span =>
    have hsecond : secondNanos ≤ d.toNat * secondNanos := by
      rw [secondNanos]
      omega
    rw [Option.bind_some, add?, Span.nanos_of_ofWord? hspan, shift?_of_leap htime hsecond, hback]
  | none =>
    -- the calendar is shorter than the longest span
    have hlong := Span.lt_of_ofWord?_eq_none hspan
    have hfirst := first_le_nanos time
    rw [← hback, Option.bind_none, eq_comm, ← Option.not_isSome_iff_eq_none, ofNanos?_isSome_iff]
    rw [secondNanos] at hlong ⊢
    omega

/-- A lease of no seconds expires at once, in a leap second too. -/
theorem expiresAt_grant_zero_of_leap (htime : time.isLeap = true) (token : String) :
    (grant ⟨token, some 0⟩ time).expiresAt = some time := by
  rw [expiresAt_grant, Option.bind_some]
  cases hspan : Span.ofWord? 0 with
  | some span =>
    have hlength : span.nanos = 0 := Span.nanos_of_ofWord? hspan
    rw [Option.bind_some, add?, hlength, shift?_zero_of_leap htime]
  | none => exact absurd (Span.lt_of_ofWord?_eq_none hspan) (by decide)

/-- **A lease that is granted in a leap second loses one second at most**, if it ends on the
calendar. -/
theorem lease_issued_grant_of_leap {d : UInt64} (htime : time.isLeap = true)
    (hlease : issued.lease = some d)
    (hends : d = 0 ∨ IsOnCalendar (time.nanos + (d.toNat - 1) * secondNanos)) :
    ∃ kept, (grant issued time).issued.lease = some kept ∧
      kept.toNat ≤ d.toNat ∧ d.toNat ≤ kept.toNat + 1 := by
  obtain ⟨token, lease⟩ := issued
  obtain rfl : lease = some d := hlease
  by_cases hd : d = 0
  · obtain rfl := hd
    have hnow : time.secondsSince time = (0 : Nat) := by simp [secondsSince]
    exact ⟨_, duration_eq_some (expiresAt_grant_zero_of_leap htime token) hnow (by decide),
      Nat.le_refl 0, Nat.zero_le _⟩
  · obtain ⟨e, he, hnanos⟩ := hends.resolve_left hd
    have hexpiry : (grant ⟨token, some d⟩ time).expiresAt = some e := by
      rw [expiresAt_grant_of_leap htime token hd, ofNanos?_eq_some_iff]
      exact ⟨he, hnanos⟩
    have hword : d.toNat < UInt64.size := d.toNat_lt
    have hpos := toNat_pos hd
    have hback : e.nanos = time.nanos + (d.toNat - 1 : Nat) * secondNanos := by
      rw [hnanos, Int.natCast_sub hpos, Int.natCast_one]
    obtain ⟨n, hsince, hn⟩ :
        ∃ n : Nat, e.secondsSince time = n ∧ n ≤ d.toNat ∧ d.toNat ≤ n + 1 := by
      obtain h | h := secondsSince_of_leap htime he hback
      · exact ⟨_, h, by omega, by omega⟩
      · exact ⟨_, h.trans (Int.natCast_succ _).symm, by omega, by omega⟩
    refine ⟨_, duration_eq_some hexpiry hsince (by omega), ?_⟩
    rw [UInt64.toNat_ofNat_of_lt' (by omega)]
    exact hn

/-- **A lease that is granted in a leap second and ends behind the calendar** gives back one that
never expires. -/
theorem lease_issued_grant_of_leap_of_beyond {d : UInt64} (htime : time.isLeap = true)
    (hlease : issued.lease = some d) (hd : d ≠ 0)
    (hends : ¬IsOnCalendar (time.nanos + (d.toNat - 1) * secondNanos)) :
    (grant issued time).issued.lease = none := by
  obtain ⟨token, lease⟩ := issued
  obtain rfl : lease = some d := hlease
  refine lease_issued_of_expiresAt ?_
  rw [expiresAt_grant_of_leap htime token hd, ofNanos?_eq_none_iff]
  exact hends

end Lease

/-- What a login makes of an exchange that it joins: of what that has issued, and of the time at
which it is recorded. -/
structure TakenOver (issued : Issued) (time : Timestamp) (result : Issued) : Prop where
  /-- The token is the same. -/
  token : result.token = issued.token
  /-- A token without a lease is taken over as it is. -/
  endless : issued.lease = none → result = issued
  /-- So is a lease that ends on the calendar, outside of a leap second, and a scheduler that relies
  on the login goes on as one that relies on the exchange. -/
  onCalendar : time.isLeap = false →
    (∀ d, issued.lease = some d →
      Timestamp.IsOnCalendar (time.nanos + d.toNat * secondNanos)) →
    result = issued ∧ ∀ p now failures,
      (Renewal.Scheduler.afterLogin p now failures (.ok result.lease) :
          Option (Renewal.Worker Nat))
        = Renewal.Scheduler.afterLogin p now failures (.ok issued.lease)
  /-- A lease that ends behind the calendar is taken over as none, and a scheduler that relies on
  the login has nothing to renew. -/
  beyond : time.isLeap = false → ∀ d, issued.lease = some d →
    ¬Timestamp.IsOnCalendar (time.nanos + d.toNat * secondNanos) →
    result.lease = none ∧ ∀ p now failures,
      (Renewal.Scheduler.afterLogin p now failures (.ok result.lease) :
        Option (Renewal.Worker Nat)) = none
  /-- A lease that is granted in a leap second ends one second early, or at once if it is of no
  seconds. If that is on the calendar it loses one second at most. -/
  leap : time.isLeap = true → ∀ d, issued.lease = some d →
    (d = 0 ∨ Timestamp.IsOnCalendar (time.nanos + (d.toNat - 1) * secondNanos)) →
    ∃ kept, result.lease = some kept ∧ kept.toNat ≤ d.toNat ∧ d.toNat ≤ kept.toNat + 1
  /-- If that is behind the calendar it is taken over as none, and a scheduler that relies on the
  login has nothing to renew. -/
  leapBeyond : time.isLeap = true → ∀ d, issued.lease = some d → d ≠ 0 →
    ¬Timestamp.IsOnCalendar (time.nanos + (d.toNat - 1) * secondNanos) →
    result.lease = none ∧ ∀ p now failures,
      (Renewal.Scheduler.afterLogin p now failures (.ok result.lease) :
        Option (Renewal.Worker Nat)) = none

/-- **What is read off a lease is what a login takes over.** -/
theorem takenOver_grant (issued : Issued) (time : Timestamp) :
    TakenOver issued time (Lease.grant issued time).issued where
  token := rfl
  endless := Lease.issued_grant_of_none
  onCalendar := by
    intro htime hends
    rw [Lease.issued_grant htime hends]
    exact ⟨rfl, fun _ _ _ => rfl⟩
  beyond := by
    intro htime d hlease hends
    rw [Lease.lease_issued_grant htime hlease hends]
    exact ⟨rfl, fun _ _ _ => rfl⟩
  leap := fun htime _ => Lease.lease_issued_grant_of_leap htime
  leapBeyond := by
    intro htime d hlease hd hends
    rw [Lease.lease_issued_grant_of_leap_of_beyond htime hlease hd hends]
    exact ⟨rfl, fun _ _ _ => rfl⟩

namespace Authenticator

variable {m : Method} {env : Surroundings} {a b : Authenticator} {e : Event}
  {past new : List Notice} {i w : Nat} {c : Call} {phase : Phase} {o : Except Failure Issued}
  {rest : List (Surroundings × Event)}

/-! ### The end of a login -/

/-- The outcome of a login is known, and it will answer with that or be given up. -/
def Phase.Concludes (o : Except Failure Issued) (phase : Phase) : Prop :=
  phase = .recording o ∨ phase.EndsWith (.issued o)

/-- How many steps of its own a login still takes whose outcome is known. -/
def Phase.turnsLeft : Phase → Nat
  | .recording _ => 2
  | .leaving _ => 1
  | _ => 0

/-- Whether an event is the next step of a call. -/
def Event.isTurnOf (i : Nat) : Event → Bool
  | .advance j => j == i
  | _ => false

/-- How often a call takes a step in some events. -/
def turns (i : Nat) (events : List (Surroundings × Event)) : Nat :=
  events.countP fun x => x.2.isTurnOf i

/-- **A login whose outcome is known keeps to it**, and a step of its own takes it further. -/
theorem Change.concludes (hchange : Change m env a e b new)
    (hc : a.calls[i]? = some ⟨.login, phase⟩) (h : phase.Concludes o) :
    ∃ next, b.calls[i]? = some ⟨.login, next⟩ ∧ next.Concludes o ∧
      next.turnsLeft ≤ phase.turnsLeft - (if e.isTurnOf i then 1 else 0) := by
  by_cases hi : e.call? = some i
  · have same : ∀ {d : Demand} {before : Phase}, a.calls[i]? = some ⟨d, before⟩ →
        d = .login ∧ before = phase := fun hc' =>
      Call.mk.inj (Option.some.inj (hc'.symm.trans hc))
    cases hchange with
    | nothing he =>
      refine ⟨phase, hc, h, ?_⟩
      -- a step that it cannot take is one that it has not left
      split
      · rename_i hturn
        cases e with
        | advance j =>
          obtain rfl : j = i := by simpa [Event.isTurnOf] using hturn
          obtain rfl | rfl | rfl | rfl := h
          · simp [isMovedBy, isReady, hc] at he
          · simp [isMovedBy, isReady, hc] at he
          · exact Nat.le_refl _
          · exact Nat.le_refl _
        | begin _ | reply _ _ | cancel _ => cases hturn
      · exact Nat.le_refl _
    | begins => cases hi
    | looks hc' | serves hc' | passes hc' | joins hc' | enters hc' | sends hc' | lacks hc'
    | hears _ hc' | turns hc' | reads hc' =>
      obtain rfl := Option.some.inj hi
      obtain ⟨-, rfl⟩ := same hc'
      simp [Phase.Concludes, Phase.EndsWith] at h
    | records hc' =>
      obtain rfl := Option.some.inj hi
      obtain ⟨rfl, rfl⟩ := same hc'
      obtain rfl : _ = o := by simpa [Phase.Concludes, Phase.EndsWith] using h
      exact ⟨_, calls_enter_self hc' _, .inr (.inl rfl), by simp [Event.isTurnOf, Phase.turnsLeft,
        afterRecording]⟩
    | leaves hc' =>
      obtain rfl := Option.some.inj hi
      obtain ⟨rfl, rfl⟩ := same hc'
      obtain rfl : _ = Answer.issued o := by simpa [Phase.Concludes, Phase.EndsWith] using h
      exact ⟨_, calls_enter_self hc' _, .inr (.inr (.inl rfl)), Nat.zero_le _⟩
    | yields hc' =>
      obtain rfl := Option.some.inj hi
      obtain ⟨rfl, rfl⟩ := same hc'
      exact ⟨_, calls_enter_self hc' _, .inr (.inr (.inr rfl)), Nat.zero_le _⟩
  · refine ⟨phase, hchange.calls_eq_of_ne hc hi, h, ?_⟩
    split
    · rename_i hturn
      cases e with
      | advance j =>
        obtain rfl : j = i := by simpa [Event.isTurnOf] using hturn
        exact absurd rfl hi
      | begin _ | reply _ _ | cancel _ => cases hturn
    · exact Nat.le_refl _

/-- A login whose outcome is known keeps to it, and its own steps take it further. -/
theorem concludes_run (hc : a.calls[i]? = some ⟨.login, phase⟩) (h : phase.Concludes o) (m : Method)
    (events : List (Surroundings × Event)) :
    ∃ next, (a.run m events).1.calls[i]? = some ⟨.login, next⟩ ∧ next.Concludes o ∧
      next.turnsLeft ≤ phase.turnsLeft - turns i events := by
  induction events generalizing a phase with
  | nil => exact ⟨phase, hc, h, Nat.le_refl _⟩
  | cons x events ih =>
    obtain ⟨env, e⟩ := x
    obtain ⟨next, hnext, hconcludes, hless⟩ := (change_step m env a e).concludes hc h
    obtain ⟨last, hlast, hconcludes, hleast⟩ := ih hnext hconcludes
    refine ⟨last, hlast, hconcludes, ?_⟩
    rw [turns, List.countP_cons]
    change last.turnsLeft ≤ phase.turnsLeft - (turns i events + _)
    simp only at hless ⊢
    omega

/-- **A login whose outcome is known answers with it** once it has taken the steps that are left,
unless it is given up. -/
theorem finished_of_concludes (hc : a.calls[i]? = some ⟨.login, phase⟩) (h : phase.Concludes o)
    (hlive : phase ≠ .cancelled) (m : Method) {events : List (Surroundings × Event)}
    (hkept : ∀ x ∈ events, x.2 ≠ .cancel i) (hturns : phase.turnsLeft ≤ turns i events) :
    (a.run m events).1.calls[i]? = some ⟨.login, .finished (.issued o)⟩ := by
  obtain ⟨next, hnext, hconcludes, hless⟩ := concludes_run hc h m events
  obtain ⟨next', hnext', hlive⟩ := ne_cancelled_run hc hlive m hkept
  obtain ⟨-, rfl⟩ := Call.mk.inj (Option.some.inj (hnext.symm.trans hnext'))
  rw [hnext]
  have hnone : next.turnsLeft = 0 := by omega
  obtain rfl | rfl | rfl | rfl := hconcludes
  · cases hnone
  · cases hnone
  · rfl
  · exact absurd rfl hlive

/-- A login whose outcome is known has no other answer. -/
theorem answer_of_concludes (hc : a.calls[i]? = some ⟨.login, phase⟩) (h : phase.Concludes o)
    (m : Method) (events : List (Surroundings × Event)) {answer : Answer}
    (hanswer : (a.run m events).1.calls[i]? = some ⟨.login, .finished answer⟩) :
    answer = .issued o := by
  obtain ⟨next, hnext, hconcludes, -⟩ := concludes_run hc h m events
  obtain ⟨-, rfl⟩ := Call.mk.inj (Option.some.inj (hnext.symm.trans hanswer))
  simpa [Phase.Concludes, Phase.EndsWith] using hconcludes

/-! ### Who has recorded an exchange -/

/-- **A login that has recorded an exchange answers with its outcome.** -/
theorem answers_run (m : Method) (events : List (Surroundings × Event)) :
    ∀ r ∈ recordings (initial.run m events).2, ∃ c,
      (initial.run m events).1.calls[r.1]? = some c ∧
        (c.demand = .login → c.phase.EndsWith (.issued r.2.2)) := by
  refine run_induction (fun b past => ∀ r ∈ recordings past, ∃ c, b.calls[r.1]? = some c ∧
    (c.demand = .login → c.phase.EndsWith (.issued r.2.2))) ?_ (List.forall_mem_nil _)
  rintro env e - a b past new hchange h r hr
  rw [recordings_append] at hr
  rcases List.mem_append.mp hr with hr | hr
  · obtain ⟨c, hc, hends⟩ := h r hr
    obtain ⟨phase, hc'⟩ := hchange.exists_call hc
    refine ⟨_, hc', fun hlogin => ?_⟩
    obtain ⟨c', hb, hends'⟩ := hchange.endsWith hc (hends hlogin)
    obtain rfl := Option.some.inj (hc'.symm.trans hb)
    exact hends'
  · cases hchange with
    | records hc =>
      obtain rfl := List.mem_singleton.mp hr
      refine ⟨_, calls_enter_self hc _, fun hlogin => .inl ?_⟩
      obtain rfl : _ = Demand.login := hlogin
      rfl
    | _ => cases hr

/-! ### Joining -/

/-- A login joins the exchange of another call: when it gets the guard, with the event before
`rest`, that is the last one recorded, it has succeeded, and it was recorded after the login had
begun. -/
inductive Joins (m : Method) (i w : Nat) (time : Timestamp) (issued : Issued)
    (rest : List (Surroundings × Event)) : List (Surroundings × Event) → Prop where
  /-- It has its turn, and that is the last record since it looked. -/
  | intro {first second : List (Surroundings × Event)} {env env' : Surroundings}
    {between : List (Nat × Timestamp × Except Failure Issued)} (hturn : IsTurn m i first env second)
    (hlast : recordings (initial.run m (first ++ (env, .advance i) :: second)).2
      = recordings (initial.run m first).2 ++ between ++ [(w, time, .ok issued)]) :
    Joins m i w time issued rest
      (first ++ (env, .advance i) :: second ++ (env', .advance i) :: rest)

/-- A login that returns a token without a request has joined an exchange. -/
theorem exists_joins_of_finished (hm : m.joins = true) {events : List (Surroundings × Event)}
    {result : Issued}
    (hc : (initial.run m events).1.calls[i]? = some ⟨.login, .finished (.issued (.ok result))⟩)
    (hunsent : i ∉ posts (initial.run m events).2) :
    ∃ w time issued rest, Joins m i w time issued rest events := by
  obtain ⟨first, env, second, env', rest, rfl, hturn⟩ := exists_turn_of_finished m hc
  cases hlook : (initial.run m (first ++ (env, .advance i) :: second)).1.succeededSince
      (recordings (initial.run m first).2).length with
  | some issued =>
    obtain ⟨between, w, time, found, hlast, -⟩ :=
      (succeededSince_run_eq_some_iff m first _).mp hlook
    exact ⟨w, time, found, rest, .intro hturn hlast⟩
  | none =>
    obtain ⟨o, ho, -, hsent⟩ := hturn.own hm hlook env' rest _ hc
    exact absurd (hsent result (Answer.issued.inj ho).symm) hunsent

/-- **A login that joins an exchange goes on to answer with the lease of it.** -/
theorem IsTurn.leaving (hm : m.joins = true) {first second : List (Surroundings × Event)}
    (hturn : IsTurn m i first env second)
    {between : List (Nat × Timestamp × Except Failure Issued)} {time : Timestamp} {issued : Issued}
    (hlast : recordings (initial.run m (first ++ (env, .advance i) :: second)).2
      = recordings (initial.run m first).2 ++ between ++ [(w, time, .ok issued)])
    (env' : Surroundings) :
    ((initial.run m (first ++ (env, .advance i) :: second)).1.step m env' (.advance i)).1.calls[i]?
      = some ⟨.login, .leaving (some (.issued (.ok (Lease.grant issued time).issued)))⟩ := by
  have hlook := (succeededSince_run_eq_some_iff m first _).mpr
    ⟨between, w, time, issued, hlast, rfl⟩
  have hc := (hturn.step_eq hm env').2
  rwa [hlook] at hc

/-- **What a login returns that joins another one.** A login that returns a token without a request
of its own has joined the exchange of another call. Whenever it joins one, that is recorded with a
success, and the other call, if it is a login, has no other answer than that success. The login
sends nothing, has one answer at most, and gets it with its next step unless it is given up: the
answer is what it takes over from the exchange, with the same token and, where the calendar allows
it, the same lease. -/
theorem joined_logins (server : Url) (role : String) (account : ServiceAccount) (threshold : Span)
    (events : List (Surroundings × Event)) :
    let m := Method.kubernetes server role account threshold
    let a := (initial.run m events).1
    let notices := (initial.run m events).2
    (∀ i result, a.calls[i]? = some ⟨.login, .finished (.issued (.ok result))⟩ →
      i ∉ posts notices → ∃ w time issued rest, Joins m i w time issued rest events) ∧
    ∀ i w time issued rest, Joins m i w time issued rest events →
      (w ≠ i ∧ i ∉ posts notices ∧ .recorded w time (.ok issued) ∈ notices ∧
        ∀ answer, a.calls[w]? = some ⟨.login, .finished answer⟩ →
          answer = .issued (.ok issued)) ∧
      ∃ result, TakenOver issued time result ∧
        (∀ answer, a.calls[i]? = some ⟨.login, .finished answer⟩ →
          answer = .issued (.ok result)) ∧
        ((∀ x ∈ rest, x.2 ≠ .cancel i) → 1 ≤ turns i rest →
          a.calls[i]? = some ⟨.login, .finished (.issued (.ok result))⟩) := by
  intro m a notices
  refine ⟨fun i result hc hunsent => exists_joins_of_finished rfl hc hunsent, ?_⟩
  rintro i w time issued rest ⟨hturn, hlast⟩
  rename_i first second env env' between
  have hrecorded : (w, time, .ok issued)
      ∈ recordings (initial.run m (first ++ (env, .advance i) :: second)).2 := by
    rw [hlast]
    simp
  have hprefix := recordings_prefix m (first ++ (env, .advance i) :: second)
    ((env', .advance i) :: rest)
  have hmem : (w, time, .ok issued) ∈ recordings notices := hprefix.subset hrecorded
  have hlook := (succeededSince_run_eq_some_iff m first _).mpr
    ⟨between, w, time, issued, hlast, rfl⟩
  have hleaving := hturn.leaving rfl hlast env'
  have hend : a = ((((initial.run m (first ++ (env, .advance i) :: second)).1.step m env'
      (.advance i)).1.run m rest).1) := by
    change
      (initial.run m (first ++ (env, .advance i) :: second ++ (env', .advance i) :: rest)).1 = _
    rw [run_append, run_cons]
  refine ⟨⟨hturn.ne_of_recorded hrecorded, (hturn.joined rfl hlook env' rest).1,
    mem_recordings.mp hmem, ?_⟩, _, takenOver_grant issued time, ?_, ?_⟩
  · intro answer hanswer
    obtain ⟨c, hc, hends⟩ := answers_run m _ _ hmem
    obtain rfl := Option.some.inj (hc.symm.trans hanswer)
    simpa [Phase.EndsWith] using hends rfl
  · intro answer hanswer
    rw [hend] at hanswer
    exact answer_of_concludes hleaving (.inr (.inl rfl)) m rest hanswer
  · intro hkept hturns
    rw [hend]
    refine finished_of_concludes hleaving (.inr (.inl rfl)) ?_ m hkept hturns
    intro h
    cases h

/-- Two logins of which the second one waits while the first one is answered, with a lease of so
many seconds, while the clock stands still. -/
def joinedPair (time : Timestamp) (seconds : String) : List (Surroundings × Event) :=
  [.begin .login, .begin .login, .advance 0, .advance 1, .advance 0, .advance 1, .advance 0,
    .advance 0, .reply 0 (.response 200 (some (Text.Utf8.encode
      ("\x7b\"auth\":\x7b\"client_token\":\"s\",\"lease_duration\":" ++ seconds ++
        "\x7d\x7d").toList))),
    .advance 0, .advance 0, .advance 1, .advance 1].map (⟨time, 0, .empty⟩, ·)

/-- The middle of the leap second at the end of 2016. -/
def leapSecond : Timestamp := ⟨1483228799, 1500000000, by decide, by decide, by decide⟩

/-- What a login has returned, if it has been issued a token. -/
def returned? (a : Authenticator) (i : Nat) : Option Issued :=
  match a.calls[i]? with
  | some ⟨.login, .finished (.issued (.ok issued))⟩ => some issued
  | _ => none

/-- What two such logins return, of which only the first one has sent a request. -/
structure JoinedPair (time : Timestamp) (seconds : String) (issued result : Issued) : Prop where
  /-- The second one has sent nothing. -/
  sent : posts (initial.run pairMethod (joinedPair time seconds)).2 = [0]
  /-- The first one returns what it has been issued. -/
  first : (initial.run pairMethod (joinedPair time seconds)).1.returned? 0 = some issued
  /-- The second one returns what it makes of that. -/
  second : (initial.run pairMethod (joinedPair time seconds)).1.returned? 1 = some result

/-- **Joined results differ** where the calendar ends and in leap seconds. A lease that is too long
for the calendar is renewed by a scheduler that relies on the first login and not by one that relies
on the second, and a lease that is granted in a leap second loses one of its seconds. -/
theorem joined_results_differ :
    JoinedPair .epoch "18446744073709551615" ⟨"s", some 18446744073709551615⟩ ⟨"s", none⟩ ∧
      (Renewal.Scheduler.afterLogin .usual 0 0 (.ok (some 18446744073709551615)) :
        Option (Renewal.Worker Nat)).isSome = true ∧
      (Renewal.Scheduler.afterLogin .usual 0 0 (.ok none) :
        Option (Renewal.Worker Nat)).isSome = false ∧
      JoinedPair leapSecond "60" ⟨"s", some 60⟩ ⟨"s", some 59⟩ :=
  ⟨⟨by decide +kernel, by decide +kernel, by decide +kernel⟩, by decide, by decide,
    ⟨by decide +kernel, by decide +kernel, by decide +kernel⟩⟩

end Authenticator

end VaultTokens
