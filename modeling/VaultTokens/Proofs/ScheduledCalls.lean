import VaultTokens.Proofs.ServicesChange
import VaultTokens.Proofs.SimulationRun

/-!
# Calls that are given up

Only a scheduler gives calls up: the login that a worker waits for, when the worker is stopped. What
a worker waits for is a call that its scheduler began, and that is a login. So a call for a token is
never given up, whatever is done with the schedulers, and an errand that has asked for one gets its
answer.

## Main results

* `kept_run` — where only logins are given up, no call for a token is
* `Owned.step`, `owned_run` — schedulers wait for logins alone, so only logins are given up
* `Outfit.exists_turn` — a call for a token goes on for as long as it has no answer
-/

namespace VaultTokens

/-! ### What a scheduler waits for -/

namespace Renewal.Scheduler

variable {Login : Type} {s : Scheduler Login} {k : Nat} {login : Login}

/-- A worker waits for a login. -/
def Holds (s : Scheduler Login) (login : Login) : Prop :=
  ∃ k w, s.worker? k = some w ∧ w.underWay? = some login

theorem holds_of_put {w : Option (Worker Login)} (h : (s.put k w).Holds login) :
    s.Holds login ∨ w.bind Worker.underWay? = some login := by
  obtain ⟨j, v, hv, hlogin⟩ := h
  by_cases hjk : j = k
  · subst hjk
    have hlt : j < s.workers.length := by
      have hlt := lt_of_worker? hv
      rwa [put, List.length_set] at hlt
    rw [worker?_put_self hlt] at hv
    exact .inr (by rw [hv]; exact hlogin)
  · rw [worker?_put_of_ne s w hjk] at hv
    exact .inl ⟨j, v, hv, hlogin⟩

theorem holds_of_loginBegun {other : Login} (h : (s.loginBegun k other).Holds login) :
    s.Holds login ∨ login = other := by
  rw [loginBegun] at h
  split at h
  · exact .inl h
  · rcases holds_of_put h with h | h
    · exact .inl h
    · exact .inr (Option.some.inj h).symm

theorem holds_of_loginEnded {now : Nat} {outcome : Except Failure (Option UInt64)}
    (h : (s.loginEnded k now outcome).1.Holds login) : s.Holds login := by
  cases hw : s.worker? k with
  | none =>
    simp only [loginEnded, hw] at h
    exact h
  | some w =>
    simp only [loginEnded, hw] at h
    rcases holds_of_put h with h | h
    · exact h
    · rw [underWay?_afterLogin] at h
      cases h

theorem holds_of_release :
    (s.release.1.Holds login → s.Holds login) ∧ (s.release.2 = some login → s.Holds login) := by
  rw [release]
  split
  · exact ⟨id, fun h => by cases h⟩
  · rename_i k hkept
    constructor
    · intro h
      exact (holds_of_put h).resolve_right (fun h => by cases h)
    · intro h
      obtain ⟨w, hw, hlogin⟩ := Option.bind_eq_some_iff.mp h
      exact ⟨k, w, hw, hlogin⟩

theorem holds_of_spawn {due : Nat} :
    ((s.spawn due).1.Holds login → s.Holds login) ∧
      ((s.spawn due).2 = some login → s.Holds login) := by
  rw [spawn]
  split
  · exact ⟨id, fun h => by cases h⟩
  · constructor
    · rintro ⟨k, w, hw, hlogin⟩
      rw [worker?_eq, List.getElem?_append] at hw
      split at hw
      · exact holds_of_release.1 ⟨k, w, hw, hlogin⟩
      · -- the new worker waits for its timer
        have hmem := List.mem_of_getElem? (Option.join_eq_some_iff.mp hw)
        obtain rfl := Option.some.inj (List.mem_singleton.mp hmem)
        cases hlogin
    · exact holds_of_release.2

/-- **Whatever is done with a scheduler, it waits for no other login, and gives no other back.** -/
theorem holds_of_start {now : Nat} :
    ((s.start now).1.Holds login → s.Holds login) ∧
      ((s.start now).2 = some login → s.Holds login) :=
  holds_of_spawn

theorem holds_of_startFrom {now : Nat} {lease : Option UInt64} :
    ((s.startFrom now lease).1.Holds login → s.Holds login) ∧
      ((s.startFrom now lease).2 = some login → s.Holds login) := by
  cases lease with
  | none => exact ⟨id, fun h => by cases h⟩
  | some lease => exact holds_of_spawn

end Renewal.Scheduler

/-! ### Calls that are kept -/

namespace Authenticator

variable {m : Method} {env : Surroundings} {a b : Authenticator} {e : Event} {new : List Notice}

/-- Calls do not vanish, and they keep to their demands. -/
theorem exists_call_run (m : Method) (events : List (Surroundings × Event)) {i : Nat} {c : Call}
    (hc : a.calls[i]? = some c) :
    ∃ phase, (a.run m events).1.calls[i]? = some ⟨c.demand, phase⟩ := by
  refine run_induction (fun b _ => ∃ phase, b.calls[i]? = some ⟨c.demand, phase⟩) ?_ ⟨c.phase, hc⟩
  rintro env e - b b' past new hchange ⟨phase, hb⟩
  obtain ⟨next, hb'⟩ := hchange.exists_call hb
  exact ⟨next, hb'⟩

/-- No call for a token was given up. -/
def Kept (a : Authenticator) : Prop :=
  ∀ (i : Nat) (phase : Phase), a.calls[i]? = some ⟨.token, phase⟩ → phase ≠ .cancelled

theorem kept_initial : Kept initial := by
  intro i phase hi
  cases hi

theorem Kept.step (h : Kept a) (hchange : Change m env a e b new)
    (he : ∀ i, e = .cancel i → ∃ phase, a.calls[i]? = some ⟨.login, phase⟩) : Kept b := by
  intro i phase hi
  by_cases hown : e.call? = some i
  · have goes : ∀ {j : Nat} {c : Call} {next : Phase}, a.calls[j]? = some c → some j = some i →
        b.calls = (a.enter j next).calls → c.demand = .token ∧ phase = next := by
      intro j c next hc hj hb
      obtain rfl := Option.some.inj hj
      rw [hb, calls_enter_self hc next] at hi
      obtain ⟨hd, rfl⟩ := Call.mk.inj (Option.some.inj hi)
      exact ⟨hd, rfl⟩
    cases hchange with
    | nothing => exact h i phase hi
    | begins => cases hown
    | yields hc hp =>
      obtain ⟨phase', hlogin⟩ := he _ rfl
      obtain ⟨hd, -⟩ := goes hc hown rfl
      cases hc.symm.trans hlogin
      cases hd
    | enters hc =>
      rename_i j seen d hi'
      obtain ⟨-, rfl⟩ := goes hc hown rfl
      rcases admitted_cases m env a d seen with hp | ⟨answer, hp⟩ <;> rw [hp] <;> exact nofun
    | records hc =>
      rename_i j d o
      obtain ⟨-, rfl⟩ := goes hc hown rfl
      cases d <;> exact nofun
    | looks hc | serves hc | passes hc | joins hc | sends hc | lacks hc | hears _ hc | leaves hc
    | turns hc | reads hc =>
      obtain ⟨-, rfl⟩ := goes hc hown rfl
      exact nofun
  · rcases hchange.calls_cases hi with hmoved | hold | hbegun
    · exact absurd hmoved hown
    · exact h i phase hold
    · intro hcancelled
      cases hbegun.symm.trans hcancelled

/-- **No call for a token is given up**, if only logins are. -/
theorem kept_run (h : Kept a) {events : List (Surroundings × Event)}
    (hevents : ∀ x ∈ events, ∀ i, x.2 = .cancel i → ∃ phase, a.calls[i]? = some ⟨.login, phase⟩)
    (m : Method) : Kept (a.run m events).1 := by
  refine (run_induction (fun b _ => Kept b ∧ ∀ (i : Nat) (c : Call), a.calls[i]? = some c →
    ∃ phase, b.calls[i]? = some ⟨c.demand, phase⟩) ?_ ⟨h, fun i c hc => ⟨c.phase, hc⟩⟩).1
  rintro env e hmem b b' past new hchange ⟨hkept, hcalls⟩
  refine ⟨hkept.step hchange fun i he => ?_, fun i c hc => ?_⟩
  · obtain ⟨phase, hlogin⟩ := hevents _ hmem i he
    exact hcalls i _ hlogin
  · obtain ⟨phase, hb⟩ := hcalls i c hc
    obtain ⟨next, hb'⟩ := hchange.exists_call hb
    exact ⟨next, hb'⟩

end Authenticator

/-! ### Among the services -/

namespace Services

variable {s t : Services} {env : Surroundings} {e : Event} {new : List Notice} {p : Exchanger}

/-- A call is a login. -/
def IsLogin (s : Services) (p : Exchanger) (call : Nat) : Prop :=
  ∃ g phase, s.provider? p = some g ∧ g.strategy.calls[call]? = some ⟨.login, phase⟩

/-- Schedulers wait for logins alone, and no call for a token was given up. -/
structure Owned (s : Services) : Prop where
  /-- What a worker waits for is a login of its scheduler's provider. -/
  logins : ∀ (k : Nat) p (scheduler : Renewal.Scheduler Nat),
    s.schedulers[k]? = some (p, scheduler) → ∀ call, scheduler.Holds call → s.IsLogin p call
  /-- No call for a token was given up. -/
  kept : ∀ p g, s.provider? p = some g → g.strategy.Kept

theorem IsLogin.after {own : List (Surroundings × Authenticator.Event)} {call : Nat}
    (h : s.IsLogin p call) (ht : t.provider? p = (s.provider? p).map (·.after own)) :
    t.IsLogin p call := by
  obtain ⟨g, phase, hg, hc⟩ := h
  obtain ⟨next, hnext⟩ := Authenticator.exists_call_run g.method own hc
  exact ⟨g.after own, next, by rw [ht, hg]; rfl, hnext⟩

/-- What happens inside providers while the schedulers stay, if nothing but logins is given up. -/
theorem Owned.of_providers (h : Owned s) (hschedulers : t.schedulers = s.schedulers)
    {own : Exchanger → List (Surroundings × Authenticator.Event)}
    (hproviders : ∀ p, t.provider? p = (s.provider? p).map (·.after (own p)))
    (hown : ∀ p, ∀ x ∈ own p, ∀ call, x.2 = .cancel call → s.IsLogin p call) : Owned t := by
  constructor
  · intro k p scheduler hk call hcall
    rw [hschedulers] at hk
    exact (h.logins k p scheduler hk call hcall).after (hproviders p)
  · intro p g hg
    rw [hproviders p] at hg
    obtain ⟨g', hg', rfl⟩ := Option.map_eq_some_iff.mp hg
    refine Authenticator.kept_run (h.kept p g' hg') ?_ g'.method
    intro x hx call hcall
    obtain ⟨g'', phase, hg'', hlogin⟩ := hown p x hx call hcall
    cases hg'.symm.trans hg''
    exact ⟨phase, hlogin⟩

theorem Owned.within (h : Owned s) (env : Surroundings) {e : Authenticator.Event}
    (he : ∀ call, e = .cancel call → s.IsLogin p call) : Owned (s.within env p e).1 := by
  refine h.of_providers (schedulers_within env s p e)
    (fun q => (traces_within env s p q e).provider) ?_
  intro q x hx call hcall
  split at hx
  · rename_i hq
    rw [List.mem_singleton.mp hx] at hcall
    rw [hq]
    exact he call hcall
  · cases hx

theorem Owned.setScheduler (h : Owned s) {k : Nat} {old new : Renewal.Scheduler Nat}
    (hk : s.schedulers[k]? = some (p, old))
    (hnew : ∀ call, new.Holds call → old.Holds call ∨ s.IsLogin p call) :
    Owned (s.setScheduler k new) := by
  have hproviders : ∀ p, (s.setScheduler k new).provider? p = s.provider? p := by
    intro p
    rcases p with (_ | _) | _ <;> rfl
  have hlogin : ∀ {p call}, s.IsLogin p call → (s.setScheduler k new).IsLogin p call := by
    rintro p call ⟨g, phase, hg, hc⟩
    exact ⟨g, phase, (hproviders p).trans hg, hc⟩
  constructor
  · intro j q scheduler hj call hcall
    rw [Services.setScheduler, List.getElem?_modify] at hj
    by_cases hkj : k = j
    · subst hkj
      simp only [hk, if_true, Option.map_eq_map, Option.map_some, Option.some.injEq,
        Prod.mk.injEq] at hj
      obtain ⟨rfl, rfl⟩ := hj
      rcases hnew call hcall with hold | hfound
      · exact hlogin (h.logins k p old hk call hold)
      · exact hlogin hfound
    · simp only [hkj, if_false, Option.map_eq_map, Option.map_id'] at hj
      exact hlogin (h.logins j q scheduler hj call hcall)
  · intro q g hg
    exact h.kept q g ((hproviders q).symm.trans hg)

theorem Owned.fire (h : Owned s) (env : Surroundings) (k : Nat) : Owned (s.fire env k).1 := by
  rw [Services.fire]
  split
  · exact h
  · rename_i p scheduler hk
    split
    · rename_i worker call hdue hcall
      have hwithin : Owned (s.within env p (.begin .login)).1 := h.within env (fun _ hcall => by cases hcall)
      refine hwithin.setScheduler (by rw [schedulers_within]; exact hk) ?_
      intro login hlogin
      rcases Renewal.Scheduler.holds_of_loginBegun hlogin with hold | rfl
      · exact .inl hold
      · right
        obtain ⟨g, hg, rfl⟩ := Option.map_eq_some_iff.mp hcall
        refine ⟨g.after [(env, .begin .login)], .begun, ?_, ?_⟩
        · rw [(traces_within env s p p _).provider, hg, if_pos rfl]
          rfl
        · show (g.strategy.calls.push _)[g.strategy.calls.size]? = _
          rw [Array.getElem?_push_size]
    · exact h

theorem Owned.settle (h : Owned s) (env : Surroundings) (k : Nat) : Owned (s.settle env k).1 := by
  rw [Services.settle]
  split
  · exact h
  · rename_i p scheduler hk
    split
    · exact h.setScheduler hk fun call hcall =>
        .inl (Renewal.Scheduler.holds_of_loginEnded hcall)
    · exact h

theorem Owned.command (h : Owned s) (env : Surroundings) (k : Nat)
    {f : Renewal.Scheduler Nat → Renewal.Scheduler Nat × Option Nat}
    (hf : ∀ scheduler call, ((f scheduler).1.Holds call → scheduler.Holds call) ∧
      ((f scheduler).2 = some call → scheduler.Holds call)) : Owned (s.command env k f) := by
  rw [Services.command]
  split
  · exact h
  · rename_i p scheduler hk
    split
    · rename_i scheduler' heq
      refine h.setScheduler hk fun call hcall => .inl ((hf scheduler call).1 ?_)
      rwa [heq]
    · rename_i scheduler' given heq
      have hwithin : Owned (s.within env p (.cancel given)).1 := by
        refine h.within env ?_
        rintro call ⟨⟩
        exact h.logins k p scheduler hk given ((hf scheduler given).2 (by rw [heq]))
      refine hwithin.setScheduler (by rw [schedulers_within]; exact hk) fun call hcall =>
        .inl ((hf scheduler call).1 ?_)
      rwa [heq]

theorem Owned.stop (h : Owned s) (env : Surroundings) (k : Nat) : Owned (s.stop env k) :=
  h.command env k fun _ _ => Renewal.Scheduler.holds_of_release

theorem Owned.shutdown (h : Owned s) (env : Surroundings) : Owned (s.shutdown env) := by
  rw [Services.shutdown]
  generalize List.range s.schedulers.length = ks
  induction ks generalizing s with
  | nil => exact h
  | cons k ks ih => exact ih (h.stop env k)

theorem Owned.of_task (h : Owned s) (hchange : Change env s e t new) {i : Nat}
    (hi : e.task? = some i) : Owned t := by
  refine h.of_providers (hchange.schedulers_eq hi) (hchange.provider_of_task hi) ?_
  intro p x hx call hcall
  obtain ⟨demand, rfl⟩ := eq_begin_of_mem_demands hx
  cases hcall

/-- **Whatever happens, schedulers wait for logins alone, and no call for a token is given up.** -/
theorem Owned.step (h : Owned s) (env : Surroundings) (e : Event) : Owned (s.step env e).1 := by
  cases e with
  | ask => exact ⟨h.logins, h.kept⟩
  | register => exact ⟨h.logins, h.kept⟩
  | proceed | reply => exact h.of_task (change_step env s _) rfl
  | advance => exact h.within env (fun _ hcall => by cases hcall)
  | deliver => exact h.within env (fun _ hcall => by cases hcall)
  | fire k => exact h.fire env k
  | settle k => exact h.settle env k
  | start k => exact h.command env k fun _ _ => Renewal.Scheduler.holds_of_start
  | startFrom k lease => exact h.command env k fun _ _ => Renewal.Scheduler.holds_of_startFrom
  | stop k => exact h.stop env k
  | shutdown => exact h.shutdown env

theorem owned_run (h : Owned s) (events : List (Surroundings × Event)) :
    Owned (s.run events).1 := by
  induction events generalizing s with
  | nil => exact h
  | cons x rest ih => exact ih (h.step x.1 x.2)

/-! ### From the beginning -/

/-- What services are made up of before anybody uses them. -/
structure Outfit where
  /-- The settings of the secret client. -/
  settings : VaultSettings
  /-- How the provider exchanges that logs in with a service account. -/
  kubernetes : Option Method
  /-- How the provider exchanges that renews its token in place. -/
  renewal : Option Method
  /-- How the providers exchange that callers have set up besides. -/
  guests : List Method
  /-- The schedulers, with their providers and policies and whether they report failures. -/
  schedulers : List (Exchanger × RenewalPolicy × Bool)

namespace Outfit

variable {o : Outfit}

/-- How a provider exchanges, if it is there. -/
def method? (o : Outfit) : Exchanger → Option Method
  | .kubernetes => o.kubernetes
  | .renewal => o.renewal
  | .guest n => o.guests[n]?

/-- Services that nobody has used yet: no call to a provider has begun, no scheduler has been
started, and the fallback strategy alone is registered. -/
def opened (o : Outfit) : Services :=
  { initial o.settings with
    kubernetes := o.kubernetes.map (⟨·, .initial⟩)
    renewal := o.renewal.map (⟨·, .initial⟩)
    guests := o.guests.map (⟨·, .initial⟩)
    schedulers := o.schedulers.map fun (p, policy, reports) => (p, .idle policy reports) }

theorem provider?_opened (o : Outfit) (p : Exchanger) :
    o.opened.provider? p = (o.method? p).map (⟨·, .initial⟩) := by
  rcases p with (_ | _) | n
  · rfl
  · rfl
  · exact List.getElem?_map

/-- Every provider has come from its beginnings by itself. -/
theorem exists_own (o : Outfit) (events : List (Surroundings × Event)) (p : Exchanger) :
    ∃ own, (o.opened.run events).1.provider? p
      = (o.method? p).map fun m => ⟨m, (Authenticator.initial.run m own).1⟩ := by
  obtain ⟨own, htraces⟩ := traces_run o.opened events p
  refine ⟨own, ?_⟩
  rw [htraces.provider, provider?_opened, Option.map_map]
  rfl

theorem owned_opened (o : Outfit) : Owned o.opened := by
  constructor
  · rintro k p scheduler hk call ⟨j, w, hw, -⟩
    rw [opened, List.getElem?_map] at hk
    obtain ⟨⟨p', policy, reports⟩, -, heq⟩ := Option.map_eq_some_iff.mp hk
    obtain ⟨-, rfl⟩ := Prod.mk.inj heq
    cases hw
  · intro p g hg
    rw [provider?_opened] at hg
    obtain ⟨m, -, rfl⟩ := Option.map_eq_some_iff.mp hg
    exact Authenticator.kept_initial

/-- **A call for a token goes on for as long as it has no answer**: it can take a step, or a reply
is awaited, be it by itself or by one of the calls before it. -/
theorem exists_turn (o : Outfit) (events : List (Surroundings × Event)) {p : Exchanger}
    {g : Guarded} (hg : (o.opened.run events).1.provider? p = some g) {call : Nat}
    {phase : Authenticator.Phase} (hc : g.strategy.calls[call]? = some ⟨.token, phase⟩) :
    (∃ result, phase = .finished (.token result)) ∨
      ∃ j, g.strategy.isReady j = true ∨ (g.strategy.pending? j).isSome = true := by
  have hkept := (owned_run o.owned_opened events).kept p g hg call phase hc
  obtain ⟨own, hprovider⟩ := o.exists_own events p
  rw [hg] at hprovider
  obtain ⟨m, -, rfl⟩ := Option.map_eq_some_iff.mp hprovider.symm
  have hsuited := Authenticator.suited_run m own call _ hc
  have horderly := Authenticator.orderly_run Authenticator.orderly_initial m own
  by_cases hturn : ∃ j, (Authenticator.initial.run m own).1.isReady j = true ∨
      ((Authenticator.initial.run m own).1.pending? j).isSome = true
  · exact .inr hturn
  · left
    have hready : ∀ j, (Authenticator.initial.run m own).1.isReady j = false := by
      intro j
      rw [← Bool.not_eq_true]
      exact fun hj => hturn ⟨j, .inl hj⟩
    have hpending : ∀ j, (Authenticator.initial.run m own).1.pending? j = none := by
      intro j
      rw [← Option.not_isSome_iff_eq_none]
      exact fun hj => hturn ⟨j, .inr hj⟩
    have hover := horderly.isOver_of_still hready hpending hc
    cases phase with
    | cancelled => exact absurd rfl hkept
    | finished answer =>
      cases answer with
      | token result => exact ⟨result, rfl⟩
      | issued result => cases hsuited
    | _ => cases hover

end Outfit

end Services

end VaultTokens
