import VaultTokens.Proofs.SchedulerMoves
import VaultTokens.Proofs.StartupHealth

/-!
# Startups that succeed

A startup that succeeds has launched its services: at once, or when its first login had succeeded.
What is known of that moment is `Ready`; what follows from it, for as long as the services go on, is
`Underway`. The schedulers are those of the strategies whose renewals are enabled, and how long they
wait for their first renewals is what the policies and the lease of the first login say.

## Main results

* `lineup_schedulers` — the schedulers of a launch are those that the setup asks for
* `Ready.underway` — what holds of services that have been launched
* `exists_ready`, `exists_launches` — a startup that succeeds launches its services
* `succeeds` — what comes of a startup that succeeds, and that health makes no difference to it
-/

namespace VaultTokens

/-! ### The schedulers of a launch -/

/-- The schedulers that a setup asks for: one for each strategy whose renewals are enabled, the
Kubernetes one first. -/
def Setup.lineup (setup : Setup) (reports : Bool) : List (Exchanger × RenewalPolicy × Bool) :=
  (setup.kubernetes.filter (·.renewal.enabled)).toList.map
      (fun k => (.kubernetes, k.renewal, reports)) ++
    (setup.token.filter (·.renewal.enabled)).toList.map fun t => (.renewal, t.renewal, reports)

namespace Startup

variable {setup : Setup} {reports : Bool} {env : Surroundings} {st : Startup} {m : Method}
  {past : List Services.Notice} {issued : Option Issued} {moment : Nat}

/-- The scheduler of the Kubernetes strategy, just launched. -/
theorem schedulers_kubernetes {k : KubernetesSettings} {issued : Issued}
    (hk : setup.kubernetes = some k) (henabled : k.renewal.enabled = true) :
    (schedulers setup reports moment (some issued))[0]?
      = some (.kubernetes,
          ((Renewal.Scheduler.idle k.renewal reports).startFrom moment issued.lease).1) := by
  simp only [schedulers, hk, scheduler?, henabled, if_true]
  rfl

/-- The scheduler of the token strategy, just launched. -/
theorem schedulers_renewal {t : TokenSettings} (hissued : setup.kubernetes.isSome = issued.isSome)
    (ht : setup.token = some t) (henabled : t.renewal.enabled = true) :
    (schedulers setup reports moment issued)[
        (setup.kubernetes.filter (·.renewal.enabled)).toList.length]?
      = some (.renewal, ((Renewal.Scheduler.idle t.renewal reports).start moment).1) := by
  obtain ⟨vault, kubernetes, token⟩ := setup
  obtain rfl : token = some t := ht
  cases kubernetes with
  | none =>
    cases issued with
    | some => cases hissued
    | none => simp [schedulers, scheduler?, henabled]
  | some k =>
    cases issued with
    | none => cases hissued
    | some issued =>
      cases hk : k.renewal.enabled <;>
        simp [schedulers, scheduler?, henabled, hk, Option.filter]

theorem lineup_scheduler? (p : Exchanger) (policy : RenewalPolicy)
    {f : Renewal.Scheduler Nat → Renewal.Scheduler Nat}
    (hf : ∀ a, (f a).policy = a.policy ∧ (f a).reports = a.reports) :
    (scheduler? p policy reports f).map Services.slot
      = if policy.enabled then some (p, policy, reports) else none := by
  obtain ⟨hpolicy, hreports⟩ := hf (.idle policy reports)
  rw [scheduler?]
  split
  · simp only [Option.map_some, Services.slot, hpolicy, hreports]
    rfl
  · rfl

/-- **The schedulers of a launch are those that the setup asks for.** -/
theorem lineup_schedulers (setup : Setup) (reports : Bool) (moment : Nat)
    (hissued : setup.kubernetes.isSome = issued.isSome) :
    (schedulers setup reports moment issued).map Services.slot
      = setup.lineup reports := by
  obtain ⟨vault, kubernetes, token⟩ := setup
  have hrenewal : ((token.bind fun t => scheduler? .renewal t.renewal reports fun s =>
        (s.start moment).1).map Services.slot)
      = (token.filter (·.renewal.enabled)).map fun t =>
          (Exchanger.renewal, t.renewal, reports) := by
    cases token with
    | none => rfl
    | some t =>
      refine (lineup_scheduler? .renewal t.renewal fun a =>
        Renewal.Scheduler.policy_spawn a moment).trans ?_
      cases henabled : t.renewal.enabled <;> simp [Option.filter, henabled]
  have happend : ∀ kubernetes : Option (Exchanger × Renewal.Scheduler Nat),
      (kubernetes.toList ++ (token.bind fun t => scheduler? .renewal t.renewal reports fun s =>
          (s.start moment).1).toList).map Services.slot
        = (kubernetes.map Services.slot).toList ++
          (token.filter (·.renewal.enabled)).toList.map fun t =>
            (Exchanger.renewal, t.renewal, reports) := by
    intro kubernetes
    rw [List.map_append, ← Option.toList_map, ← Option.toList_map, ← Option.toList_map, hrenewal]
  cases kubernetes with
  | none => exact happend none
  | some k =>
    cases issued with
    | none => cases hissued
    | some issued =>
      refine (happend _).trans ?_
      rw [lineup_scheduler? .kubernetes k.renewal fun a =>
        Renewal.Scheduler.policy_startFrom a moment issued.lease]
      cases henabled : k.renewal.enabled <;> simp [Setup.lineup, Option.filter, henabled]

/-! ### Services that have been launched -/

/-- What a startup has come to when it launches: the first login, if there is one, has its token,
and nobody has called anything else. -/
structure Ready (setup : Setup) (reports : Bool) (st : Startup) (issued : Option Issued) :
    Prop where
  /-- The setup is the one that the startup began with. -/
  setup_eq : st.setup = setup
  /-- So is whether failures are reported. -/
  reports_eq : st.reports = reports
  /-- A login has issued a token exactly if there is a provider that logs in. -/
  issued : setup.kubernetes.isSome = issued.isSome
  /-- Without settings there is no provider that logs in. -/
  kubernetes_none : setup.kubernetes = none → st.services.kubernetes = none
  /-- With settings there is one, and its one call is over. -/
  kubernetes_some : ∀ k, setup.kubernetes = some k → ∃ account threshold a answer,
    st.services.kubernetes = some ⟨.kubernetes k.url k.role account threshold, a⟩ ∧
      a.calls = #[⟨.login, .finished answer⟩]
  /-- Nobody has called the provider that renews a token. -/
  renewal : st.services.renewal = setup.token.map (⟨.ofToken ·, .initial⟩)
  /-- There are no other providers. -/
  guests : st.services.guests = []
  /-- There is no errand. -/
  tasks : st.services.tasks = #[]

/-- What holds of services that a setup has launched at a moment, after a login that was told a
lease. -/
structure Underway (setup : Setup) (reports : Bool) (moment : Nat) (lease : UInt64)
    (up : Services) : Prop where
  /-- The schedulers are those of the setup, and stay so. -/
  lineup : ∀ more, (up.run more).1.lineup = setup.lineup reports
  /-- Whatever a provider sends, it sends for a call that a scheduler or an errand has begun. -/
  origins : ∀ more p call r, .within p (.sent call r) ∈ (up.run more).2 →
    ∃ front env e rest demand, more = front ++ (env, e) :: rest ∧
      (up.run front).1.nextCall? p = some call ∧ (up.run front).1.Brings p e (.begin demand)
  /-- What the Kubernetes provider sends is a login. -/
  logins : ∀ more call r, .within .kubernetes (.sent call r) ∈ (up.run more).2 →
    ∃ k jwt, setup.kubernetes = some k ∧ Login.kubernetesRequest (.server k.url) k.role jwt = .ok r
  /-- What the token provider sends is a renewal of its token. -/
  renewals : ∀ more call r, .within .renewal (.sent call r) ∈ (up.run more).2 →
    ∃ t, setup.token = some t ∧ Login.post Login.renewalWords (Login.renewalEndpoint t.url)
      (some t.token) (Login.renewalBody t.ttl) = .ok r
  /-- The Kubernetes scheduler runs exactly if the lease is not zero, and its first renewal is due
  before the end of the lease by the buffer. -/
  kubernetes : ∀ k, setup.kubernetes = some k → k.renewal.enabled = true →
    up.running[0]? = some (decide (0 < lease)) ∧
      (0 < lease → up.FirstRenewal 0 .kubernetes
        (moment + Renewal.Turn.renewalWait k.renewal lease))
  /-- The first renewal of the token scheduler is due at once. -/
  renewal : ∀ t, setup.token = some t → t.renewal.enabled = true →
    ∃ k, (setup.lineup reports)[k]? = some (.renewal, t.renewal, reports) ∧
      up.FirstRenewal k .renewal moment

theorem Ready.provider?_kubernetes (h : Ready setup reports st issued) {g : Guarded}
    (hg : st.services.provider? .kubernetes = some g) :
    ∃ k account threshold a answer, setup.kubernetes = some k ∧
      g = ⟨.kubernetes k.url k.role account threshold, a⟩ ∧
        a.calls = #[⟨.login, .finished answer⟩] := by
  cases hk : setup.kubernetes with
  | none => cases (h.kubernetes_none hk).symm.trans hg
  | some k =>
    obtain ⟨account, threshold, a, answer, hprovider, hcalls⟩ := h.kubernetes_some k hk
    exact ⟨k, account, threshold, a, answer, rfl, Option.some.inj (hg.symm.trans hprovider), hcalls⟩

theorem Ready.provider?_renewal (h : Ready setup reports st issued) {g : Guarded}
    (hg : st.services.provider? .renewal = some g) :
    ∃ t, setup.token = some t ∧ g = ⟨.ofToken t, .initial⟩ := by
  obtain ⟨t, ht, rfl⟩ := Option.map_eq_some_iff.mp (h.renewal.symm.trans hg)
  exact ⟨t, ht, rfl⟩

/-- The first login sends nothing more; every other call has an origin after the launch. -/
theorem Ready.origin (h : Ready setup reports st issued) {up : Services}
    (hup : ∀ p, up.provider? p = st.services.provider? p)
    (more : List (Surroundings × Services.Event)) {p : Exchanger} {call : Nat} {r : Request}
    (hsent : .within p (.sent call r) ∈ (up.run more).2) :
    ∃ front env e rest demand, more = front ++ (env, e) :: rest ∧
      (up.run front).1.nextCall? p = some call ∧
        (up.run front).1.Brings p e (.begin demand) := by
  obtain ⟨g, files, hg, -⟩ := Services.exists_prepare_of_sent up more hsent
  have hnext : up.nextCall? p = some g.strategy.calls.size :=
    Services.nextCall?_eq_some.mpr ⟨g, hg, rfl⟩
  refine Services.exists_begin_of_sent up more hnext ?_ hsent
  rcases p with (_ | _) | n
  · obtain ⟨k, account, threshold, a, answer, -, rfl, hcalls⟩ :=
      h.provider?_kubernetes ((hup .kubernetes).symm.trans hg)
    have hanswer : up.answer? .kubernetes 0 = some answer := by
      rw [Services.answer?, hg, Option.bind_some]
      exact Authenticator.answer?_eq_some.mpr ⟨.login, by rw [hcalls]; rfl⟩
    have hcall : call ≠ 0 := by
      rintro rfl
      obtain ⟨own, htraces⟩ := Services.traces_run up more .kubernetes
      exact (htraces.answer? hanswer).2 r hsent
    rw [hcalls]
    exact Nat.pos_of_ne_zero hcall
  · obtain ⟨t, -, rfl⟩ := h.provider?_renewal ((hup .renewal).symm.trans hg)
    exact Nat.zero_le call
  · have hguest := (hup (.guest n)).symm.trans hg
    rw [Services.provider?, h.guests] at hguest
    cases hguest

/-- The Kubernetes scheduler of a launch waits for the renewal of the token that was issued. -/
theorem Ready.waits_kubernetes (h : Ready setup reports st issued) (env : Surroundings)
    {k : KubernetesSettings} {i : Issued} {lease : UInt64} (hk : setup.kubernetes = some k)
    (henabled : k.renewal.enabled = true) (hissued : issued = some i)
    (hlease : i.lease = some lease) :
    (st.launch env issued).services.Waits 0 .kubernetes
      (env.moment + Renewal.Turn.renewalWait k.renewal lease) := by
  obtain ⟨account, threshold, a, answer, hprovider, -⟩ := h.kubernetes_some k hk
  constructor
  · rw [schedulers_launch, h.setup_eq, h.reports_eq, hissued, schedulers_kubernetes hk henabled,
      hlease, ← Renewal.Turn.deadline_nextDelay_eq]
    exact ⟨_, rfl, rfl, rfl⟩
  · rw [provider?_launch, Services.provider?, hprovider]
    rfl

/-- The token scheduler of a launch waits for nothing. -/
theorem Ready.waits_renewal (h : Ready setup reports st issued) (env : Surroundings)
    {t : TokenSettings} (ht : setup.token = some t) (henabled : t.renewal.enabled = true) :
    (st.launch env issued).services.Waits
      (setup.kubernetes.filter (·.renewal.enabled)).toList.length .renewal env.moment := by
  constructor
  · rw [schedulers_launch, h.setup_eq, h.reports_eq, schedulers_renewal h.issued ht henabled]
    exact ⟨_, rfl, rfl, rfl⟩
  · rw [provider?_launch, Services.provider?, h.renewal, ht]
    rfl

theorem Ready.underway (h : Ready setup reports st issued) (env : Surroundings) (lease : UInt64)
    (hlease : ∀ i, issued = some i → i.lease = if lease = 0 then none else some lease) :
    Underway setup reports env.moment lease (st.launch env issued).services := by
  have hup := provider?_launch env st issued
  constructor
  · intro more
    rw [Services.lineup_run, Services.lineup, schedulers_launch, h.setup_eq, h.reports_eq]
    exact lineup_schedulers setup reports env.moment h.issued
  · intro more p call r hsent
    exact h.origin hup more hsent
  · intro more call r hsent
    obtain ⟨g, files, hg, hr⟩ := Services.exists_prepare_of_sent _ more hsent
    rw [hup] at hg
    obtain ⟨k, account, threshold, a, answer, hk, rfl, -⟩ := h.provider?_kubernetes hg
    obtain ⟨jwt, -, hrequest⟩ := Method.prepare_kubernetes_eq_ok.mp hr
    exact ⟨k, jwt, hk, hrequest⟩
  · intro more call r hsent
    obtain ⟨g, files, hg, hr⟩ := Services.exists_prepare_of_sent _ more hsent
    rw [hup] at hg
    obtain ⟨t, ht, rfl⟩ := h.provider?_renewal hg
    exact ⟨t, ht, hr⟩
  · intro k hk henabled
    obtain ⟨i, hi⟩ : ∃ i, issued = some i := by
      rw [← Option.isSome_iff_exists, ← h.issued, hk]
      rfl
    have hi' := hlease i hi
    by_cases hzero : lease = 0
    · rw [if_pos hzero] at hi'
      refine ⟨?_, fun hpos => absurd hpos (by rw [hzero]; decide)⟩
      rw [Services.running, List.getElem?_map, schedulers_launch, h.setup_eq, h.reports_eq, hi,
        schedulers_kubernetes hk henabled, hi', hzero]
      rfl
    · rw [if_neg hzero] at hi'
      have hfirst := (h.waits_kubernetes env hk henabled hi hi').firstRenewal
      refine ⟨?_, fun _ => hfirst⟩
      have hpos : 0 < lease := UInt64.pos_iff_ne_zero.mpr hzero
      rw [decide_eq_true hpos]
      exact hfirst.running [] (List.forall_mem_nil _)
  · intro t ht henabled
    refine ⟨_, ?_, (h.waits_renewal env ht henabled).firstRenewal⟩
    rw [Setup.lineup, List.getElem?_append_right (by simp), List.length_map, Nat.sub_self, ht]
    simp [Option.filter, henabled]

/-! ### Startups that succeed -/

theorem ready_atOnce (reports : Bool) {s : Services} (hparts : wired setup env.files = .ok s)
    (hwired : Wired setup s) (hnone : setup.kubernetes = none) :
    Ready setup reports ⟨setup, reports, s, .started⟩ none := by
  obtain ⟨-, hrenewal, hguests⟩ := parts_of_wired hparts
  refine ⟨rfl, rfl, by rw [hnone]; rfl, hwired.kubernetes_none, fun k hk => ?_, hrenewal, hguests,
    hwired.tasks⟩
  cases hnone.symm.trans hk

theorem LoggedIn.ready {k : KubernetesSettings} {account : ServiceAccount} {threshold : Span}
    {before : List (Surroundings × Event)} {issued : Issued} {s : Services}
    (h : LoggedIn (.kubernetes k.url k.role account threshold) st past before issued)
    (hparts : wired setup env.files = .ok s) (hk : setup.kubernetes = some k)
    (hst : st = ⟨setup, reports, (s.within env .kubernetes (.begin .login)).1, .loggingIn 0⟩) :
    Ready setup reports (st.run before).1 (some issued) := by
  obtain ⟨-, hrenewal, hguests⟩ := parts_of_wired hparts
  have hrun := h.services
  -- providers other than the one that logs in have stayed as they were wired
  have hother : ∀ p, p ≠ .kubernetes → ∃ own,
      (st.run before).1.services.provider? p = (s.provider? p).map (·.after own) := by
    intro p hp
    obtain ⟨own, htraces⟩ := Services.traces_run st.services (inner before) p
    refine ⟨own, ?_⟩
    rw [hrun]
    show ((st.services.run (inner before)).1).provider? p = _
    rw [htraces.provider, hst]
    show ((s.within env .kubernetes (.begin .login)).1.provider? p).map _ = _
    rw [(Services.traces_within env s .kubernetes p (.begin .login)).provider, if_neg hp,
      Option.map_map]
    rfl
  refine ⟨by rw [hrun, hst], by rw [hrun, hst], by rw [hk]; rfl, ?_, ?_, ?_, ?_,
    (h.alone before (List.prefix_refl _)).2⟩
  · intro hnone
    cases hnone.symm.trans hk
  · intro k' hk'
    obtain rfl := Option.some.inj (hk.symm.trans hk')
    obtain ⟨env', own, hown, hprovider, -⟩ := h.attempt.login
    obtain ⟨phase, hcalls, -⟩ := Authenticator.firstLogin_login _ env' hown
    have ha := login?_eq_some.mp h.login
    rw [Services.answer?, Services.provider?, hprovider, Option.bind_some] at ha
    obtain ⟨d, hc⟩ := Authenticator.answer?_eq_some.mp ha
    obtain ⟨-, hsame⟩ := Authenticator.eq_of_single hcalls hc
    obtain ⟨-, rfl⟩ := Authenticator.Call.mk.inj hsame
    exact ⟨account, threshold, _, _, hprovider, hcalls⟩
  · obtain ⟨own, hprovider⟩ := hother .renewal (by decide)
    have hsame : (st.run before).1.services.renewal = s.renewal.map (·.after own) := hprovider
    rw [hsame, hrenewal]
    cases ht : setup.token with
    | none => rfl
    | some t =>
      rw [hrenewal, ht] at hsame
      have hinitial := h.attempt.others .renewal _ (by decide) hsame
      exact congrArg some (congrArg (Guarded.mk _) hinitial)
  · obtain ⟨own, hprovider⟩ := hother (.guest 0) (by decide)
    have hsame : (st.run before).1.services.guests[0]? = s.guests[0]?.map (·.after own) := hprovider
    rw [hguests] at hsame
    exact List.eq_nil_of_length_eq_zero (Nat.le_zero.mp (List.getElem?_eq_none_iff.mp hsame))

/-- The first login of a startup has been all that happened: it sent one request and was replied to,
and there was no scheduler and no errand before it was over. -/
structure FirstLogin (k : KubernetesSettings) (st : Startup)
    (before : List (Surroundings × Event)) (lease : UInt64) : Prop where
  /-- Up to then there was no scheduler and no errand. -/
  alone : ∀ front, front <+: before →
    (st.run front).1.services.schedulers = [] ∧ (st.run front).1.services.tasks = #[]
  /-- The login has succeeded with the reply to the one request that was sent, which told a
  lease. -/
  exchange : ∃ r jwt reply issued, Services.requests (st.run before).2 = [r] ∧
    Login.kubernetesRequest (.server k.url) k.role jwt = .ok r ∧
      Login.conclude Login.kubernetesWords r.url reply = .ok issued ∧
        (st.run before).1.login? = some (.ok issued) ∧ Login.told reply = lease

/-- When a startup launches its services, and after what: at once if there is no Kubernetes
strategy, and else as soon as it learns that the first login has succeeded. -/
inductive Launches (setup : Setup) (env : Surroundings) (st : Startup)
    (events : List (Surroundings × Event)) : Nat → UInt64 → List Services.Notice → Services →
      List (Surroundings × Services.Event) → Prop where
  /-- There is nothing to wait for. -/
  | atOnce (h : setup.kubernetes = none) :
    Launches setup env st events env.moment 0 [] st.services (inner events)
  /-- The first login has succeeded. -/
  | loggedIn {k : KubernetesSettings} {before after : List (Surroundings × Event)}
    {env' : Surroundings} {lease : UInt64} (hk : setup.kubernetes = some k)
    (hevents : events = before ++ (env', .proceed) :: after)
    (hlogin : FirstLogin k st before lease) :
    Launches setup env st events env'.moment lease (st.run before).2
      ((st.run before).1.proceed env').services (inner after)

theorem LoggedIn.proceed_eq {before : List (Surroundings × Event)} {issued : Issued}
    (h : LoggedIn m st past before issued) (hstage : st.stage = .loggingIn 0)
    (env : Surroundings) :
    (st.run before).1.proceed env = (st.run before).1.launch env (some issued) := by
  have hstage' : (st.run before).1.stage = .loggingIn 0 := by
    rw [h.services]
    exact hstage
  rw [Startup.proceed, hstage']
  simp only [login?_eq_some.mp h.login]

theorem LoggedIn.firstLogin {k : KubernetesSettings} {account : ServiceAccount} {threshold : Span}
    {before : List (Surroundings × Event)} {issued : Issued}
    (h : LoggedIn (.kubernetes k.url k.role account threshold) st [] before issued) :
    ∃ lease, FirstLogin k st before lease ∧
      issued.lease = if lease = 0 then none else some lease := by
  obtain ⟨files, r, reply, hsent, hr, hconclude⟩ := h.attempt.earned h.login
  obtain ⟨jwt, -, hrequest⟩ := Method.prepare_kubernetes_eq_ok.mp hr
  refine ⟨Login.told reply, ⟨h.alone, ?_⟩, Login.lease_of_conclude hconclude⟩
  exact ⟨r, jwt, reply, issued, hsent, hrequest, hconclude, h.login, rfl⟩

/-- **A startup that succeeds launches its services when it is ready to**, and from then on only they
go on. -/
theorem exists_ready (hbegin : begin setup reports env = .ok st)
    {events : List (Surroundings × Event)} (hown : ∀ x ∈ events, x.2.isOwn = true)
    (hstarted : (st.run events).1.stage = .started) :
    ∃ ready issued env' lease past later, Ready setup reports ready issued ∧
      (∀ i, issued = some i → i.lease = if lease = 0 then none else some lease) ∧
        Launches setup env st events env'.moment lease past (ready.launch env' issued).services
          later ∧
          (st.run events).1.services = ((ready.launch env' issued).services.run later).1 ∧
            (st.run events).2 = past ++ ((ready.launch env' issued).services.run later).2 := by
  have hpast : (st.run events).1.stage.isPast = true := by
    rw [hstarted]
    rfl
  obtain ⟨s, hparts, hwired, -, ⟨hnone, hst⟩ | ⟨k, -, -, hk, -, hst⟩⟩ := begin_eq_ok hbegin
  · obtain ⟨hservices, hnotices⟩ := run_inner_of_past
      (show st.stage.isPast = true by rw [hst]; exact isPast_launch ..) events
    refine ⟨_, none, env, 0, [], inner events, ready_atOnce reports hparts hwired hnone,
      fun i hi => (by cases hi), ?_⟩
    rw [← hst]
    exact ⟨.atOnce hnone, hservices, hnotices⟩
  · obtain ⟨k', account, threshold, hk', hattempt⟩ | ⟨hnone, -⟩ := begin_ok_cases hbegin
    · obtain rfl := Option.some.inj (hk.symm.trans hk')
      have hstage : st.stage = .loggingIn 0 := by rw [hst]
      obtain ⟨before, env', after, issued, rfl, hlogged⟩ :=
        hattempt.exists_launch hstage hown hpast
      obtain ⟨lease, hlogin, hlease⟩ := hlogged.firstLogin
      have hlaunch := hlogged.proceed_eq hstage env'
      obtain ⟨hservices, hnotices⟩ := run_inner_of_past
        (show ((st.run before).1.proceed env').stage.isPast = true by
          rw [hlaunch]; exact isPast_launch ..) after
      refine ⟨_, some issued, env', lease, (st.run before).2, inner after,
        hlogged.ready hparts hk hst, fun i hi => ?_, ?_⟩
      · obtain rfl := Option.some.inj hi
        exact hlease
      · rw [← hlaunch, run_append]
        exact ⟨.loggedIn hk rfl hlogin, hservices, congrArg _ hnotices⟩
    · cases hnone.symm.trans hk

/-- **A startup that succeeds launches its services**, and from then on only they go on. -/
theorem exists_launches (hbegin : begin setup reports env = .ok st)
    {events : List (Surroundings × Event)} (hown : ∀ x ∈ events, x.2.isOwn = true)
    (hstarted : (st.run events).1.stage = .started) :
    ∃ moment lease past up later, Launches setup env st events moment lease past up later ∧
      Underway setup reports moment lease up ∧
        (st.run events).1.services = (up.run later).1 ∧
          (st.run events).2 = past ++ (up.run later).2 := by
  obtain ⟨ready, issued, env', lease, past, later, hready, hlease, hlaunches, hservices, hnotices⟩ :=
    exists_ready hbegin hown hstarted
  exact ⟨_, _, _, _, _, hlaunches, hready.underway env' lease hlease, hservices, hnotices⟩

/-! ### Without a check of health -/

theorem tasks_proceed (hcheck : st.setup.vault.healthCheck = false) (env : Surroundings) :
    (st.proceed env).services.tasks = st.services.tasks ∧ (st.proceed env).setup = st.setup := by
  rw [Startup.proceed]
  split
  · split
    · rw [launch, hcheck]
      exact ⟨rfl, rfl⟩
    · exact ⟨rfl, rfl⟩
    · exact ⟨rfl, rfl⟩
  · split <;> exact ⟨rfl, rfl⟩
  · exact ⟨rfl, rfl⟩
  · exact ⟨rfl, rfl⟩

/-- **A startup that is not to check health has no errand.** -/
theorem unasked_run (hcheck : st.setup.vault.healthCheck = false)
    (htasks : st.services.tasks = #[]) {events : List (Surroundings × Event)}
    (hown : ∀ x ∈ events, x.2.isOwn = true) :
    ∀ n ∈ (st.run events).2, n.task? = none := by
  induction events generalizing st with
  | nil => exact List.forall_mem_nil _
  | cons x rest ih =>
    obtain ⟨env, e⟩ := x
    have hrest : ∀ x ∈ rest, x.2.isOwn = true := fun x hx => hown x (List.mem_cons_of_mem _ hx)
    have he : e.isOwn = true := hown _ List.mem_cons_self
    cases e with
    | proceed =>
      obtain ⟨hsame, hsetup⟩ := tasks_proceed hcheck env
      exact ih (by rw [hsetup]; exact hcheck) (hsame.trans htasks) hrest
    | services e =>
      have hchange := Services.change_step env st.services e
      have hsize := hchange.size_tasks he
      rw [htasks] at hsize
      have hnext := Array.size_eq_zero_iff.mp hsize
      intro n hn
      rcases List.mem_append.mp hn with hn | hn
      · cases hi : n.task? with
        | none => rfl
        | some i =>
          have hnone : st.services.tasks[i]? = none := by
            rw [htasks]
            rfl
          have hmem : n ∈ Services.about i (st.services.step env e).2 :=
            List.mem_filter.mpr ⟨hn, decide_eq_true hi⟩
          rw [hchange.about_of_none hnone] at hmem
          cases hmem
      · exact @ih { st with services := (st.services.step env e).1 } hcheck hnext hrest n hn

theorem tasks_begin (hbegin : begin setup reports env = .ok st)
    (hcheck : setup.vault.healthCheck = false) : st.services.tasks = #[] := by
  obtain ⟨s, -, hwired, -, ⟨-, rfl⟩ | ⟨k, -, -, -, -, rfl⟩⟩ := begin_eq_ok hbegin
  · rw [launch]
    simp only [hcheck, Bool.false_eq_true, if_false]
    exact hwired.tasks
  · exact (Services.scheduled_within ..).tasks.trans hwired.tasks

/-- **Startups that succeed.** A startup that is up has launched its services: at once if there is
no Kubernetes strategy, and else when the first login had succeeded, before which there was nothing
else. The schedulers are those of the strategies whose renewals are enabled, the Kubernetes one
first. It runs exactly if the login was told a lease, and its first renewal begins before the end of
that lease by the buffer, but a second later at least and thirty years later at most; the token
scheduler begins its first renewal at once. Whatever else a provider sends, a scheduler or an errand
has asked it to.

What the server replies to the check of its health, and when, and whether at all, makes no
difference to anything else, and without a check nothing is sent for one. -/
theorem succeeds (setup : Setup) (reports : Bool) (env : Surroundings) :
    (∀ st, begin setup reports env = .ok st →
      ∀ events : List (Surroundings × Event), (∀ x ∈ events, x.2.isOwn = true) →
        ((st.run events).1.stage = .started →
          ∃ moment lease past up later, Launches setup env st events moment lease past up later ∧
            Underway setup reports moment lease up ∧
              (st.run events).1.services = (up.run later).1 ∧
                (st.run events).2 = past ++ (up.run later).2) ∧
        (setup.vault.healthCheck = false → ∀ i r, .sent i r ∉ (st.run events).2)) ∧
    (∀ (st : Startup) (first second : List (Surroundings × Event)),
      unanswered first = unanswered second →
        (∀ f, (st.run first).1.stage = .failed f ↔ (st.run second).1.stage = .failed f) ∧
        (st.run first).1.services.withoutTasks = (st.run second).1.services.withoutTasks ∧
          Services.apart (st.run first).2 = Services.apart (st.run second).2) ∧
    ∀ first second : Network, Services.RepliesAlike setup.vault first second →
      ((∃ f, (Session.start first setup reports env).1 = .error f ∧
          (Session.start second setup reports env).1 = .error f) ∨
        ∃ s t, (Session.start first setup reports env).1 = .ok s ∧
          (Session.start second setup reports env).1 = .ok t ∧ ∀ delays,
            (s.waits first delays).1.services.withoutTasks
                = (t.waits second delays).1.services.withoutTasks ∧
              (s.waits first delays).2 = (t.waits second delays).2) ∧
        Services.apart (Session.start first setup reports env).2
          = Services.apart (Session.start second setup reports env).2 := by
  refine ⟨fun st hbegin events hown => ⟨exists_launches hbegin hown, ?_⟩, ?_, ?_⟩
  · intro hcheck i r hr
    have hsetup := setup_begin hbegin
    cases unasked_run (by rw [hsetup]; exact hcheck) (tasks_begin hbegin hcheck) hown _ hr
  · intro st first second h
    obtain ⟨habreast, hsame⟩ := abreast_run h st
    refine ⟨fun f => ?_, Services.withoutTasks_eq_of_bare habreast.services, hsame⟩
    rcases habreast.stage with hstage | ⟨hpast, hpast'⟩
    · rw [hstage]
    · constructor
      · intro hf
        rw [hf] at hpast
        cases hpast
      · intro hf
        rw [hf] at hpast'
        cases hpast'
  · intro first second hn
    obtain ⟨hstart, hsame⟩ := Session.start_congr setup reports env hn
    refine ⟨hstart.imp_right ?_, hsame⟩
    rintro ⟨s, t, hs, ht, halike⟩
    refine ⟨s, t, hs, ht, fun delays => ⟨?_, (halike delays).2⟩⟩
    exact Services.withoutTasks_eq_of_bare (halike delays).1.services.bare_eq

/-- A setup with a Kubernetes strategy whose service account token is given inline. -/
def longLived : Setup where
  vault := {
    url := ⟨.http, .absent, .name "vault.test", some 8200, [[]], none, none⟩
    method := Provider.kubernetes.method
    fallbackToken := none
    healthCheck := false
    healthPath := usualHealthPath
    standbyOk := false
    secretPath := usualSecretPath
    folder := some "app"
    timeout := usualTimeout
    method_ne := by decide
    fallback_ne := by decide
    folder_named := by
      rintro folder ⟨⟩
      decide }
  kubernetes := some {
    url := ⟨.http, .absent, .name "vault.test", some 8200, [[]], none, none⟩
    role := "app"
    inlineToken := some "jwt"
    tokenFile := "token"
    threshold := usualThreshold
    renewal := .usual
    role_named := by decide
    inline_named := by
      rintro token ⟨⟩
      decide }
  token := none

/-- The surroundings at a moment on the timer clock. -/
def longMoment (moment : Nat) : Surroundings := ⟨.epoch, moment, .empty⟩

/-- A first login that is told a lease of more than thirty years. -/
def longLogin : List (Surroundings × Event) :=
  [.services (.advance .kubernetes 0), .services (.advance .kubernetes 0),
    .services (.advance .kubernetes 0), .services (.advance .kubernetes 0),
    .services (.deliver .kubernetes 0 (.response 200 (some (Text.Utf8.encode
      "\x7b\"auth\":\x7b\"client_token\":\"s\",\"lease_duration\":1000000000\x7d\x7d".toList)))),
    .services (.advance .kubernetes 0), .services (.advance .kubernetes 0), .proceed].map
      fun e => (longMoment 0, e)

/-- How often the provider was called when the services were up, and after the timer went off. -/
def longCalls (st : Startup) : Option (Option Nat × Option Nat) :=
  match (st.run longLogin).1.stage with
  | .started =>
    let up := (st.run longLogin).1.services
    some (up.nextCall? .kubernetes,
      (up.step (longMoment Renewal.Turn.longest) (.fire 0)).1.nextCall? .kubernetes)
  | _ => none

/-- What has been found out about a startup that has begun. -/
theorem exists_of_bind {α : Type} {begun : Except Failure Startup} {f : Startup → Option α} {a : α}
    (h : begun.toOption.bind f = some a) : ∃ st, begun = .ok st ∧ f st = some a := by
  cases begun with
  | error failure => cases h
  | ok st => exact ⟨st, rfl, h⟩

/-- A lease of more than thirty years is too long for a timer: the first renewal begins after thirty
years. -/
theorem renewed_in_thirty_years :
    ∃ st, begin longLived false (longMoment 0) = .ok st ∧
      (∀ x ∈ longLogin, x.2.isOwn = true) ∧ longCalls st = some (some 1, some 2) ∧
        Renewal.Turn.longest ≠ 0 + max nanosPerSecond
          (((1000000000 : UInt64).toNat - RenewalPolicy.usual.buffer.toNat) * nanosPerSecond) := by
  have hcalls : (begin longLived false (longMoment 0)).toOption.bind longCalls
      = some (some 1, some 2) := by decide +kernel
  obtain ⟨st, hst, hlong⟩ := exists_of_bind hcalls
  exact ⟨st, hst, by decide, hlong, by decide⟩

end Startup

end VaultTokens
