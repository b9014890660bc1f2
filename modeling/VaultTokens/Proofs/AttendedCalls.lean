import VaultTokens.Proofs.GivenUpCalls
import VaultTokens.Proofs.SchedulerMoves

/-!
# Calls that somebody attends to

A call to a provider that is not over has somebody who attends to it: an errand that has asked for
it (`Awaits`) or a scheduler whose worker waits for it (`Renews`). Nobody attends to the call of
another one, and only schedulers give calls up, so that the call of an errand never is. All of this
is an invariant (`Attended`): a call begins with who attends to it, an errand goes on once its call
has been answered, and a scheduler lets go of a call when it has been answered or when it is given
up.

## Main results

* `Awaits.step_cases`, `Renews.step_cases` — who attends to a call has done so or has begun it
* `exists_cancels_of_interrupts` — the call that a stopped scheduler waits for is over
* `Attended.step`, `attended_run` — every call that is not over is attended to
-/

namespace VaultTokens

/-! ### The worker that waits for a login -/

namespace Renewal.Scheduler

variable {Login : Type} {a : Scheduler Login} {k : Nat} {w : Worker Login} {login : Login}

/-- What a scheduler with one worker at most waits for. -/
theorem flight?_eq_some_iff (h : a.Sole) : a.flight? = some login ↔ a.Holds login := by
  constructor
  · intro hflight
    rw [flight?] at hflight
    obtain ⟨k, -, hk⟩ := Option.bind_eq_some_iff.mp hflight
    obtain ⟨w, hw, hlogin⟩ := Option.bind_eq_some_iff.mp hk
    exact ⟨k, w, hw, hlogin⟩
  · rintro ⟨k, w, hw, hlogin⟩
    rw [flight?_of_worker? h hw, hlogin]

theorem isRunning_of_holds (h : a.Sole) (hholds : a.Holds login) : a.isRunning = true := by
  obtain ⟨k, w, hw, -⟩ := hholds
  exact (isRunning_iff h).mpr ⟨k, w, hw⟩

theorem sole_loginBegun (h : a.Sole) (k : Nat) (login : Login) : (a.loginBegun k login).Sole := by
  rw [loginBegun]
  split
  · exact h
  · rename_i hw
    exact sole_put h hw _

theorem sole_loginEnded (h : a.Sole) (k now : Nat) (outcome : Except Failure (Option UInt64)) :
    (a.loginEnded k now outcome).1.Sole := by
  simp only [loginEnded]
  split
  · exact h
  · rename_i hw
    exact sole_put h hw _

theorem sole_startFrom (h : a.Sole) (now : Nat) (lease : Option UInt64) :
    (a.startFrom now lease).1.Sole := by
  cases lease with
  | none => exact h
  | some lease => exact sole_spawn h _

theorem holds_loginBegun (hw : a.worker? k = some w) (login : Login) :
    (a.loginBegun k login).Holds login := by
  simp only [loginBegun, hw]
  exact ⟨k, _, worker?_put_self (lt_of_worker? hw) _, rfl⟩

/-- A worker whose timer goes off waits for no login. -/
theorem worker?_of_dueBy? {moment : Nat} (h : a.dueBy? moment = some k) :
    ∃ w, a.worker? k = some w ∧ w.underWay? = none := by
  rw [dueBy?] at h
  obtain ⟨hk, hdue, -⟩ := List.findIdx?_eq_some_iff_getElem.mp h
  cases hw : a.workers[k] with
  | none =>
    rw [hw] at hdue
    cases hdue
  | some w =>
    refine ⟨w, by rw [worker?, List.getElem?_eq_getElem hk, hw]; rfl, ?_⟩
    rw [hw] at hdue
    obtain ⟨wait, failures⟩ := w
    cases wait with
    | timer due => rfl
    | login underWay => cases hdue

theorem not_holds_of_dueBy? (h : a.Sole) {moment : Nat} (hdue : a.dueBy? moment = some k) :
    ¬a.Holds login := by
  rintro ⟨j, v, hv, hlogin⟩
  obtain ⟨w, hw, hnone⟩ := worker?_of_dueBy? hdue
  obtain rfl := h.unique hv hw
  obtain rfl := Option.some.inj (hv.symm.trans hw)
  cases hnone.symm.trans hlogin

end Renewal.Scheduler

/-! ### Calls that are given up -/

namespace Authenticator

variable {m : Method} {env : Surroundings} {a b : Authenticator} {e : Event} {new : List Notice}
  {i : Nat} {c : Call}

/-- A call that is given up in a run is over after it. -/
theorem isOver_of_mem_cancel (hc : a.calls[i]? = some c) (m : Method)
    {events : List (Surroundings × Event)} (hmem : (env, .cancel i) ∈ events) :
    ∃ c', (a.run m events).1.calls[i]? = some c' ∧ c'.phase.isOver = true := by
  obtain ⟨before, after, rfl⟩ := List.append_of_mem hmem
  obtain ⟨phase, hbefore⟩ := exists_call_run m before hc
  obtain ⟨c', hc', hover⟩ := isOver_cancel hbefore
  rw [run_append]
  exact (over_run hc' hover m after).1

/-- **Only who is given up is given up.** -/
theorem Change.ne_cancelled (hchange : Change m env a e b new) (hc : a.calls[i]? = some c)
    (hlive : c.phase ≠ .cancelled) (he : e ≠ .cancel i) :
    ∃ phase, b.calls[i]? = some ⟨c.demand, phase⟩ ∧ phase ≠ .cancelled := by
  by_cases hi : e.call? = some i
  · have goes : ∀ {d : Demand} {phase next : Phase}, a.calls[i]? = some ⟨d, phase⟩ →
        b.calls = (a.enter i next).calls → next ≠ .cancelled →
        ∃ phase, b.calls[i]? = some ⟨c.demand, phase⟩ ∧ phase ≠ .cancelled := by
      intro d phase next hc' hb hnext
      obtain rfl := Option.some.inj (hc'.symm.trans hc)
      exact ⟨next, by rw [hb, calls_enter_self hc' next], hnext⟩
    cases hchange with
    | nothing => exact ⟨c.phase, hc, hlive⟩
    | begins => cases hi
    | yields =>
      obtain rfl := Option.some.inj hi
      exact absurd rfl he
    | enters hc' =>
      rename_i j seen d hhead
      obtain rfl := Option.some.inj hi
      refine goes hc' rfl ?_
      rcases admitted_cases m env a d seen with hp | ⟨answer, hp⟩ <;> rw [hp] <;>
        exact fun h => (by cases h)
    | records hc' =>
      rename_i j d o
      obtain rfl := Option.some.inj hi
      exact goes hc' rfl (by cases d <;> exact fun h => (by cases h))
    | looks hc' | serves hc' | passes hc' | joins hc' | sends hc' | lacks hc' | hears _ hc'
    | leaves hc' | turns hc' | reads hc' =>
      obtain rfl := Option.some.inj hi
      exact goes hc' rfl fun h => (by cases h)
  · exact ⟨c.phase, hchange.calls_eq_of_ne hc hi, hlive⟩

theorem ne_cancelled_run {d : Demand} {phase : Phase} (hc : a.calls[i]? = some ⟨d, phase⟩)
    (hlive : phase ≠ .cancelled) (m : Method) {events : List (Surroundings × Event)}
    (hevents : ∀ x ∈ events, x.2 ≠ .cancel i) :
    ∃ phase, (a.run m events).1.calls[i]? = some ⟨d, phase⟩ ∧ phase ≠ .cancelled := by
  refine run_induction (fun b _ => ∃ phase, b.calls[i]? = some ⟨d, phase⟩ ∧ phase ≠ .cancelled)
    ?_ ⟨phase, hc, hlive⟩
  rintro env e hmem a b past new hchange ⟨phase, hc, hlive⟩
  exact hchange.ne_cancelled hc hlive (hevents _ hmem)

end Authenticator

namespace Services

variable {s t : Services} {env : Surroundings} {e : Event} {p : Exchanger} {k i call : Nat}
  {a : Renewal.Scheduler Nat} {errand : Errand}

/-! ### Who attends to a call -/

/-- An errand waits for a call to a provider. -/
def Awaits (s : Services) (p : Exchanger) (call : Nat) : Prop :=
  ∃ (i : Nat) (errand : Errand), s.tasks[i]? = some ⟨errand, .asking p call⟩

/-- A scheduler waits for a call to its provider. -/
def Renews (s : Services) (p : Exchanger) (call : Nat) : Prop :=
  ∃ (k : Nat) (scheduler : Renewal.Scheduler Nat),
    s.schedulers[k]? = some (p, scheduler) ∧ scheduler.Holds call

/-- No scheduler has more than one worker. -/
def Single (s : Services) : Prop := ∀ (k : Nat) (p : Exchanger) (scheduler : Renewal.Scheduler Nat),
  s.schedulers[k]? = some (p, scheduler) → scheduler.Sole

theorem Moved.sole {b : Renewal.Scheduler Nat} (h : Moved env s p k e a b) (ha : a.Sole) :
    b.Sole := by
  cases h with
  | stays => exact ha
  | begins => exact Renewal.Scheduler.sole_loginBegun ha _ _
  | ends => exact Renewal.Scheduler.sole_loginEnded ha _ _ _
  | starts => exact Renewal.Scheduler.sole_spawn ha _
  | startsFrom => exact Renewal.Scheduler.sole_startFrom ha _ _
  | stops => exact Renewal.Scheduler.sole_release ha

/-- A scheduler was there before an event, and the event has moved it. -/
theorem exists_moved (env : Surroundings) (s : Services) (e : Event)
    (hk : (s.step env e).1.schedulers[k]? = some (p, a)) :
    ∃ old, s.schedulers[k]? = some (p, old) ∧ Moved env s p k e old a := by
  have hlt := (List.getElem?_eq_some_iff.mp hk).1
  rw [length_schedulers_step] at hlt
  obtain ⟨⟨q, old⟩, hold⟩ : ∃ entry, s.schedulers[k]? = some entry :=
    ⟨_, List.getElem?_eq_getElem hlt⟩
  obtain ⟨b, hb, hmoved⟩ := moved_step env e hold
  obtain ⟨rfl, rfl⟩ := Prod.mk.inj (Option.some.inj (hb.symm.trans hk))
  exact ⟨old, hold, hmoved⟩

theorem Single.step (h : Single s) (env : Surroundings) (e : Event) : Single (s.step env e).1 := by
  intro k p a hk
  obtain ⟨old, hold, hmoved⟩ := exists_moved env s e hk
  exact hmoved.sole (h k p old hold)

/-- The answer to the call that a scheduler waits for. -/
theorem answer?_of_settled? (h : a.Sole) {worker : Nat} {answer : Authenticator.Answer}
    (hsettled : s.settled? p a = some (worker, answer)) :
    ∃ call, a.flight? = some call ∧ s.answer? p call = some answer := by
  rw [settled?] at hsettled
  obtain ⟨⟨worker', call⟩, hmem, hanswer⟩ := List.exists_of_findSome?_eq_some hsettled
  obtain ⟨answer', hanswer', heq⟩ := Option.map_eq_some_iff.mp hanswer
  obtain ⟨-, rfl⟩ := Prod.mk.inj heq
  have hflight := List.mem_map_of_mem (f := Prod.snd) hmem
  rw [Renewal.Scheduler.underWay_eq h] at hflight
  exact ⟨call, Option.mem_toList.mp hflight, hanswer'⟩

theorem answered?_ne_asking (errand : Errand) (answer : Authenticator.Answer) :
    errand.answered? answer ≠ some (.asking p call) := by
  cases answer with
  | issued result => cases errand <;> exact fun h => (by cases h)
  | token result => cases result <;> cases errand <;> exact fun h => (by cases h)

/-- **Who waits for a call has done so or has just begun it.** -/
theorem Awaits.step_cases (env : Surroundings) (s : Services) (e : Event)
    (ht : (s.step env e).1.tasks[i]? = some ⟨errand, .asking p call⟩) :
    s.tasks[i]? = some ⟨errand, .asking p call⟩ ∨
      e = .proceed i ∧ ∃ g name demand, s.provider? p = some g ∧ g.strategy.calls.size = call ∧
        errand.demand? s.settings.method = some (name, demand) ∧
          (s.step env e).1.provider? p = some (g.after [(env, .begin demand)]) := by
  have hchange := change_step env s e
  generalize (s.step env e).1 = t, (s.step env e).2 = new at ht hchange ⊢
  rcases hchange.task_cases ht with ⟨stage, hold⟩ | ⟨-, hbegun⟩
  · rcases hchange.onward hold with ⟨hsame, -⟩ | ⟨next, hnext, honward⟩
    · cases hsame.symm.trans ht
      exact .inl hold
    · cases hnext.symm.trans ht
      cases honward with
      | asksFixed _ _ hs => exact absurd hs (answered?_ne_asking _ _)
      | resumes _ hs => exact absurd hs (answered?_ne_asking _ _)
      | asksProvider hd hr hg =>
        rename_i name demand g
        refine .inr ⟨rfl, g, name, demand, hg, rfl, hd, ?_⟩
        rw [hchange.provider_of_task rfl p, hg]
        simp [demands]
  · cases hbegun

/-- **Which scheduler waits for a call has done so or has just begun it.** -/
theorem Renews.step_cases (env : Surroundings) (s : Services) (e : Event)
    (ht : (s.step env e).1.Renews p call) :
    s.Renews p call ∨ (∃ k, e = .fire k) ∧ s.nextCall? p = some call := by
  obtain ⟨k, a, hk, hholds⟩ := ht
  obtain ⟨old, hold, hmoved⟩ := exists_moved env s e hk
  cases hmoved with
  | stays => exact .inl ⟨k, a, hold, hholds⟩
  | begins _ hcall =>
    rcases Renewal.Scheduler.holds_of_loginBegun hholds with hholds | rfl
    · exact .inl ⟨k, old, hold, hholds⟩
    · exact .inr ⟨⟨k, rfl⟩, hcall⟩
  | ends => exact .inl ⟨k, old, hold, Renewal.Scheduler.holds_of_loginEnded hholds⟩
  | starts => exact .inl ⟨k, old, hold, Renewal.Scheduler.holds_of_start.1 hholds⟩
  | startsFrom => exact .inl ⟨k, old, hold, Renewal.Scheduler.holds_of_startFrom.1 hholds⟩
  | stops => exact .inl ⟨k, old, hold, Renewal.Scheduler.holds_of_release.1 hholds⟩

/-- What stopping a scheduler brings to its provider: the call is given up that it waits for. -/
theorem exists_cancels_of_interrupts (env : Surroundings) (hk : s.schedulers[k]? = some (p, a))
    (hcall : a.flight? = some call) (he : e.interrupts k = true) :
    ∃ own, Traces p own s (s.step env e).1 (s.step env e).2 ∧ (env, .cancel call) ∈ own := by
  have hflight : s.flight? p k = some call := flight?_eq_some.mpr ⟨a, hk, hcall⟩
  cases e with
  | stop j =>
    obtain rfl : j = k := by simpa [Event.interrupts] using he
    refine ⟨_, traces_command env s j Renewal.Scheduler.stop p, mem_cancels.mpr ⟨call, ?_, rfl⟩⟩
    exact Option.mem_toList.mpr hflight
  | shutdown =>
    refine ⟨_, traces_stops env s p List.nodup_range, mem_cancels.mpr ⟨call, ?_, rfl⟩⟩
    refine List.mem_filterMap.mpr ⟨k, ?_, hflight⟩
    exact List.mem_range.mpr (List.getElem?_eq_some_iff.mp hk).1
  | _ => cases he

/-- A call that has just begun has somebody who waits for it. -/
theorem attends_begun (env : Surroundings) (s : Services) (e : Event) {n : Nat}
    (hs : s.nextCall? p = some n) (hn : n ≤ call)
    (ht : ∃ n', (s.step env e).1.nextCall? p = some n' ∧ call < n') :
    (s.step env e).1.Awaits p call ∨ (s.step env e).1.Renews p call := by
  obtain ⟨hnext, demand, hbrings⟩ := exists_begin_step env s e hs hn ht
  cases hbrings with
  | fire hk =>
    rename_i k scheduler
    right
    rw [step, fire, hk] at ht ⊢
    cases hdue : scheduler.dueBy? env.moment with
    | none =>
      -- no timer has gone off, so no call has begun
      obtain ⟨n', hn', hlt⟩ := ht
      simp only [hdue] at hn'
      obtain rfl := Option.some.inj (hs.symm.trans hn')
      exact absurd hlt (Nat.not_lt_of_le hn)
    | some worker =>
      obtain ⟨w, hw, -⟩ := Renewal.Scheduler.worker?_of_dueBy? hdue
      simp only [hdue, hnext]
      refine ⟨k, scheduler.loginBegun worker call, ?_,
        Renewal.Scheduler.holds_loginBegun hw call⟩
      rw [getElem?_setScheduler _ k _ (by rw [schedulers_within]; exact hk), if_pos rfl]
  | proceed hc hd hr =>
    rename_i i errand name
    left
    refine ⟨i, errand, ?_⟩
    have hwithin : (s.within env p (.begin demand)).1.tasks[i]? = some ⟨errand, .begun⟩ :=
      (scheduled_within env s p _).tasks ▸ hc
    rw [step, Services.proceed, hc]
    simp only [hd, consult, Registry.resolve, hr, hnext]
    exact tasks_enter_self hwithin _

/-! ### Everybody attends to a call of their own -/

/-- Every call that is not over has somebody who attends to it. -/
structure Attended (s : Services) : Prop where
  /-- Schedulers wait for logins alone. -/
  owned : Owned s
  /-- No scheduler has more than one worker. -/
  single : Single s
  /-- Who attends to a call waits for it. -/
  attends : ∀ p g (call : Nat) c, s.provider? p = some g → g.strategy.calls[call]? = some c →
    c.phase.isOver = false → s.Awaits p call ∨ s.Renews p call
  /-- Nobody waits for the call of another one. -/
  apart : ∀ p call, s.Awaits p call → ¬s.Renews p call
  /-- An errand waits for what it demands, and the call was not given up. -/
  asked : ∀ (i : Nat) errand p call, s.tasks[i]? = some ⟨errand, .asking p call⟩ →
    ∃ g name demand phase, s.provider? p = some g ∧
      errand.demand? s.settings.method = some (name, demand) ∧
        g.strategy.calls[call]? = some ⟨demand, phase⟩ ∧ phase ≠ .cancelled

theorem Attended.lt_nextCall_of_awaits (h : Attended s) (ha : s.Awaits p call) :
    ∃ n, s.nextCall? p = some n ∧ call < n := by
  obtain ⟨i, errand, hi⟩ := ha
  obtain ⟨g, name, demand, phase, hg, -, hc, -⟩ := h.asked i errand p call hi
  exact ⟨_, nextCall?_eq_some.mpr ⟨g, hg, rfl⟩, (Array.getElem?_eq_some_iff.mp hc).1⟩

theorem Attended.lt_nextCall_of_renews (h : Attended s) (hr : s.Renews p call) :
    ∃ n, s.nextCall? p = some n ∧ call < n := by
  obtain ⟨k, a, hk, hholds⟩ := hr
  obtain ⟨g, phase, hg, hc⟩ := h.owned.logins k p a hk call hholds
  exact ⟨_, nextCall?_eq_some.mpr ⟨g, hg, rfl⟩, (Array.getElem?_eq_some_iff.mp hc).1⟩

/-- A scheduler lets go of a call that is not over only to give it up. -/
theorem Attended.renews_step (h : Attended s) (hr : s.Renews p call) (env : Surroundings)
    (e : Event) (hopen : s.answer? p call = none) :
    (s.step env e).1.Renews p call ∨
      ∃ own, Traces p own s (s.step env e).1 (s.step env e).2 ∧ (env, .cancel call) ∈ own := by
  obtain ⟨k, a, hk, hholds⟩ := hr
  have hsole := h.single k p a hk
  have hflight := (Renewal.Scheduler.flight?_eq_some_iff hsole).mpr hholds
  have hrun := Renewal.Scheduler.isRunning_of_holds hsole hholds
  obtain ⟨b, hb, hmoved⟩ := moved_step env e hk
  cases hmoved with
  | stays => exact .inl ⟨k, a, hb, hholds⟩
  | begins hdue => exact absurd hholds (Renewal.Scheduler.not_holds_of_dueBy? hsole hdue)
  | ends hsettled =>
    obtain ⟨call', hcall', hanswer⟩ := answer?_of_settled? hsole hsettled
    obtain rfl := Option.some.inj (hflight.symm.trans hcall')
    cases hopen.symm.trans hanswer
  | starts =>
    rw [Renewal.Scheduler.start_of_isRunning hrun] at hb
    exact .inl ⟨k, a, hb, hholds⟩
  | startsFrom =>
    rw [Renewal.Scheduler.startFrom_of_isRunning hrun] at hb
    exact .inl ⟨k, a, hb, hholds⟩
  | stops _ he => exact .inr (exists_cancels_of_interrupts env hk hflight he)

/-- An errand lets go of its call only once it has been answered. -/
theorem Awaits.step (ha : s.Awaits p call) (env : Surroundings) (e : Event)
    (hopen : s.answer? p call = none) : (s.step env e).1.Awaits p call := by
  obtain ⟨i, errand, hi⟩ := ha
  have hchange := change_step env s e
  generalize (s.step env e).1 = t, (s.step env e).2 = new at hchange ⊢
  rcases hchange.onward hi with ⟨hsame, -⟩ | ⟨next, -, honward⟩
  · exact ⟨i, errand, hsame⟩
  · cases honward with
    | resumes hanswer => cases hopen.symm.trans hanswer
    | sends hstage => rcases hstage with ⟨hstage, -⟩ | hstage <;> cases hstage
    | lacks hstage => rcases hstage with ⟨hstage, -⟩ | hstage <;> cases hstage

/-- **Every call that is not over still has somebody who waits for it.** -/
theorem Attended.attends_step (h : Attended s) (env : Surroundings) (e : Event) {g : Guarded}
    {c : Authenticator.Call} (hg : (s.step env e).1.provider? p = some g)
    (hc : g.strategy.calls[call]? = some c) (hlive : c.phase.isOver = false) :
    (s.step env e).1.Awaits p call ∨ (s.step env e).1.Renews p call := by
  obtain ⟨own, htraces, -⟩ := brings_step env s e p
  rw [htraces.provider] at hg
  obtain ⟨old, hold, rfl⟩ := Option.map_eq_some_iff.mp hg
  have hnext := nextCall?_eq_some.mpr ⟨old, hold, rfl⟩
  cases hcall : old.strategy.calls[call]? with
  | none =>
    refine attends_begun env s e hnext (Array.getElem?_eq_none_iff.mp hcall) ⟨_, ?_,
      (Array.getElem?_eq_some_iff.mp hc).1⟩
    exact nextCall?_eq_some.mpr ⟨old.after own, by rw [htraces.provider, hold]; rfl, rfl⟩
  | some before =>
    -- a call that is not over was not over before
    have hbefore : before.phase.isOver = false := by
      rw [← Bool.not_eq_true]
      intro hover
      obtain ⟨⟨c', hc', hover'⟩, -⟩ := Authenticator.over_run hcall hover old.method own
      rw [← Option.some.inj (hc.symm.trans hc'), hlive] at hover'
      cases hover'
    have hopen : s.answer? p call = none := by
      rw [Option.eq_none_iff_forall_ne_some]
      intro answer hanswer
      rw [answer?, hold, Option.bind_some] at hanswer
      obtain ⟨d, hfinished⟩ := Authenticator.answer?_eq_some.mp hanswer
      obtain rfl := Option.some.inj (hcall.symm.trans hfinished)
      cases hbefore
    rcases h.attends p old call before hold hcall hbefore with ha | hr
    · exact .inl (ha.step env e hopen)
    · rcases h.renews_step hr env e hopen with hr | ⟨own', htraces', hmem⟩
      · exact .inr hr
      · -- a call that has just been given up is over
        obtain ⟨c', hc', hover'⟩ := Authenticator.isOver_of_mem_cancel hcall old.method hmem
        have hsame := htraces'.provider.symm.trans htraces.provider
        rw [hold] at hsame
        have hcalls : c' = c := by
          have hguarded : old.after own' = old.after own := Option.some.inj hsame
          have hc'' : (old.after own').strategy.calls[call]? = some c' := hc'
          rw [hguarded] at hc''
          exact Option.some.inj (hc''.symm.trans hc)
        rw [hcalls, hlive] at hover'
        cases hover'

theorem Attended.apart_step (h : Attended s) (env : Surroundings) (e : Event)
    (ha : (s.step env e).1.Awaits p call) : ¬(s.step env e).1.Renews p call := by
  intro hr
  obtain ⟨i, errand, hi⟩ := ha
  rcases Awaits.step_cases env s e hi with hold | ⟨rfl, g, -, -, hg, rfl, -⟩
  · rcases Renews.step_cases env s e hr with hr | ⟨-, hnext⟩
    · exact h.apart p call ⟨i, errand, hold⟩ hr
    · obtain ⟨n, hn, hlt⟩ := h.lt_nextCall_of_awaits ⟨i, errand, hold⟩
      obtain rfl := Option.some.inj (hnext.symm.trans hn)
      exact Nat.lt_irrefl _ hlt
  · rcases Renews.step_cases env s _ hr with hr | ⟨⟨k, hfire⟩, -⟩
    · obtain ⟨n, hn, hlt⟩ := h.lt_nextCall_of_renews hr
      obtain rfl := Option.some.inj ((nextCall?_eq_some.mpr ⟨g, hg, rfl⟩).symm.trans hn)
      exact Nat.lt_irrefl _ hlt
    · cases hfire

/-- What is given up is not the call of an errand. -/
theorem Attended.not_cancels (h : Attended s) (ha : s.Awaits p call) :
    ¬Brings s p e (.cancel call) := by
  intro hbrings
  have hrenews : ∀ {k : Nat} {a : Renewal.Scheduler Nat}, s.schedulers[k]? = some (p, a) →
      a.flight? = some call → s.Renews p call := fun hk hflight =>
    ⟨_, _, hk, (Renewal.Scheduler.flight?_eq_some_iff (h.single _ p _ hk)).mp hflight⟩
  cases hbrings with
  | stop hk hflight => exact h.apart p call ha (hrenews hk hflight)
  | shutdown hk hflight => exact h.apart p call ha (hrenews hk hflight)

theorem Attended.asked_step (h : Attended s) (env : Surroundings) (e : Event)
    (hi : (s.step env e).1.tasks[i]? = some ⟨errand, .asking p call⟩) :
    ∃ g name demand phase, (s.step env e).1.provider? p = some g ∧
      errand.demand? (s.step env e).1.settings.method = some (name, demand) ∧
        g.strategy.calls[call]? = some ⟨demand, phase⟩ ∧ phase ≠ .cancelled := by
  rw [(change_step env s e).settings_eq]
  rcases Awaits.step_cases env s e hi with hold | ⟨rfl, g, name, demand, -, rfl, hd, hprovider⟩
  · obtain ⟨g, name, demand, phase, hg, hd, hc, hlive⟩ := h.asked i errand p call hold
    obtain ⟨own, htraces, hbrought⟩ := brings_step env s e p
    have hown : ∀ x ∈ own, x.2 ≠ .cancel call := fun x hx hcancel =>
      h.not_cancels ⟨i, errand, hold⟩ (hcancel ▸ (hbrought.brings x hx).2)
    obtain ⟨phase', hc', hlive'⟩ := Authenticator.ne_cancelled_run hc hlive g.method hown
    exact ⟨g.after own, name, demand, phase', by rw [htraces.provider, hg]; rfl, hd, hc', hlive'⟩
  · refine ⟨_, name, demand, .begun, hprovider, hd, ?_, fun h => (by cases h)⟩
    show (g.strategy.calls.push _)[g.strategy.calls.size]? = _
    rw [Array.getElem?_push_size]

theorem Attended.step (h : Attended s) (env : Surroundings) (e : Event) :
    Attended (s.step env e).1 where
  owned := h.owned.step env e
  single := h.single.step env e
  attends _ _ _ _ := h.attends_step env e
  apart _ _ := h.apart_step env e
  asked _ _ _ _ := h.asked_step env e

/-- **Every call that is not over is attended to**, whatever happens. -/
theorem attended_run (h : Attended s) (events : List (Surroundings × Event)) :
    Attended (s.run events).1 :=
  run_preserves (fun _ env e h => h.step env e) h events

end Services

end VaultTokens
