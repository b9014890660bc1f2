import VaultTokens.Services.Session
import VaultTokens.Proofs.ServicesChange
import VaultTokens.Proofs.SharedLogin

/-!
# Startups that fail

A startup fails for one of three reasons, looked for in this order: there is no service account
token, there is no strategy under the configured name, or the first login fails. The first two are
known before anything is sent.

While the first login is under way the services have one call, to one provider, and nothing else
that could move: no scheduler and no errand. `Lone` follows that call and `Attempt` the services
around it. When the call is over the startup fails or goes on for good, and a startup that failed
stays exactly as it is: whatever could happen by itself, nothing does.

## Main results

* `begin_error_cases` — what fails before anything is sent
* `Attempt.run`, `launched_run` — a startup during its first login, and after it
* `Attempt.run_of_failed` — a startup that failed stays as it is
* `Attempt.exhaust_turn` — over a network the first login comes to an end
* `fails_cleanly` — which startups fail, and what they have sent by then
-/

namespace VaultTokens

/-! ### A call by itself -/

namespace Authenticator

variable {m : Method} {env : Surroundings} {a b : Authenticator} {e : Event}
  {past new : List Notice} {i : Nat}

/-- The only call there is is a login, and nobody gave it up. -/
def Lone (a : Authenticator) : Prop :=
  ∃ phase, phase ≠ .cancelled ∧ a.calls = #[⟨.login, phase⟩]

theorem Lone.enter (h : Lone a) {c : Call} {next : Phase} (hc : a.calls[i]? = some c)
    (hnext : next ≠ .cancelled) : Lone (a.enter i next) := by
  obtain ⟨phase, -, hcalls⟩ := h
  refine ⟨next, hnext, ?_⟩
  rw [hcalls] at hc
  cases i with
  | zero =>
    rw [Authenticator.enter, hcalls]
    rfl
  | succ i => cases hc

theorem Lone.step (h : Lone a) (hchange : Change m env a e b new)
    (he : e.isStepOrReply = true) : Lone b := by
  cases hchange with
  | nothing => exact h
  | begins | yields => cases he
  | looks hc | serves hc | passes hc | joins hc | sends hc | lacks hc | hears _ hc | leaves hc
  | turns hc | reads hc => exact Lone.enter h hc nofun
  | enters hc =>
    refine Lone.enter h hc ?_
    rcases admitted_cases m env a _ _ with hp | ⟨answer, hp⟩
    · rw [hp]
      exact nofun
    · rw [hp]
      exact nofun
  | records hc =>
    rename_i d o
    refine Lone.enter h hc ?_
    cases d <;> exact nofun

/-- A first login and what happens to it. -/
def login (m : Method) (env : Surroundings) (own : List (Surroundings × Event)) :
    Authenticator × List Notice :=
  initial.run m ((env, .begin .login) :: own)

theorem login_append (m : Method) (env : Surroundings) (own more : List (Surroundings × Event)) :
    login m env (own ++ more) = (((login m env own).1.run m more).1,
      (login m env own).2 ++ ((login m env own).1.run m more).2) := by
  rw [login, ← List.cons_append, run_append]
  rfl

theorem lone_login (m : Method) (env : Surroundings) {own : List (Surroundings × Event)}
    (hown : ∀ x ∈ own, x.2.isStepOrReply = true) : Lone (login m env own).1 := by
  rw [login, run_cons]
  refine run_induction (fun a _ => Lone a) ?_ ⟨.begun, nofun, rfl⟩
  intro env' e hmem a b past new hchange h
  exact h.step hchange (hown _ hmem)

/-- What is sent is a request of the method. -/
theorem prepared_run (m : Method) (a : Authenticator) (events : List (Surroundings × Event)) :
    ∀ i r, .sent i r ∈ (a.run m events).2 → ∃ files, m.prepare files = .ok r := by
  refine run_induction
    (fun _ past => ∀ i r, .sent i r ∈ past → ∃ files, m.prepare files = .ok r) ?_
    (fun _ _ hr => by cases hr)
  rintro env e - a b past new hchange h i r hr
  rcases List.mem_append.mp hr with hr | hr
  · exact h i r hr
  · cases hchange with
    | sends hc hprepare =>
      cases List.mem_singleton.mp hr
      exact ⟨env.files, hprepare⟩
    | nothing | begins | looks | passes | joins | turns | yields => cases hr
    | serves | enters | lacks | hears | records | leaves | reads =>
      cases List.mem_singleton.mp hr

/-- One login sends one request at most. -/
theorem posts_login (m : Method) (env : Surroundings) {own : List (Surroundings × Event)}
    (hown : ∀ x ∈ own, x.2.isStepOrReply = true) : (posts (login m env own).2).length ≤ 1 := by
  obtain ⟨phase, -, hcalls⟩ := lone_login m env hown
  have hposted := posted_run m ((env, .begin .login) :: own)
  have hzero : ∀ j ∈ posts (login m env own).2, j = 0 := by
    intro j hj
    obtain ⟨c, hc, -⟩ := hposted.spent j hj
    rw [show (initial.run m ((env, .begin .login) :: own)).1.calls = _ from hcalls] at hc
    cases j with
    | zero => rfl
    | succ j => cases hc
  have hnodup : (posts (login m env own).2).Nodup := hposted.nodup
  match hposts : posts (login m env own).2 with
  | [] => exact Nat.zero_le 1
  | [j] => exact Nat.le_refl 1
  | j :: k :: more =>
    rw [hposts] at hzero hnodup
    have hjk : j = k := (hzero j (by simp)).trans (hzero k (by simp)).symm
    exact absurd (hjk ▸ List.mem_cons_self) (List.nodup_cons.mp hnodup).1

/-- Where every call is over, steps and replies change nothing. -/
theorem step_of_over (m : Method) (env : Surroundings)
    (h : ∀ (j : Nat) (c : Call), a.calls[j]? = some c → ∃ answer, c.phase = .finished answer)
    (he : e.isStepOrReply = true) : a.step m env e = (a, []) := by
  cases e with
  | begin | cancel => cases he
  | advance j =>
    rw [step, advance]
    split
    · rfl
    · rename_i c hc
      obtain ⟨answer, hanswer⟩ := h j c hc
      rw [hanswer]
  | reply j reply =>
    rw [step, receive]
    split
    · rename_i d r hc
      obtain ⟨answer, hanswer⟩ := h j _ hc
      cases hanswer
    · rfl

end Authenticator

/-! ### Services that nobody has asked anything of -/

namespace Services

variable {s t : Services} {env : Surroundings} {e : Event} {past new : List Notice} {p : Exchanger}

/-- Whether an event happens by itself: nobody asks anything or touches a scheduler or the
registry. -/
def Event.isOwn : Event → Bool
  | .proceed _ | .reply .. | .advance .. | .deliver .. | .fire _ | .settle _ => true
  | _ => false

/-- Without errands and schedulers nothing happens by itself but inside a provider. -/
theorem step_of_bare (env : Surroundings) (htasks : s.tasks = #[]) (hschedulers : s.schedulers = [])
    (he : e.isOwn = true) :
    s.step env e = (s, []) ∨
      ∃ p own, own.isStepOrReply = true ∧ s.step env e = s.within env p own := by
  cases e with
  | ask | start | startFrom | stop | shutdown | register => cases he
  | proceed i => exact .inl (by simp [step, proceed, htasks])
  | reply i reply => exact .inl (by simp [step, receive, htasks])
  | fire k => exact .inl (by simp [step, fire, hschedulers])
  | settle k => exact .inl (by simp [step, settle, hschedulers])
  | advance p call => exact .inr ⟨p, .advance call, rfl, rfl⟩
  | deliver p call reply => exact .inr ⟨p, .reply call reply, rfl, rfl⟩

/-- The requests that have been sent. -/
def requests (past : List Notice) : List Request := past.filterMap Notice.request?

/-- The requests that a provider has sent, each by a call. -/
theorem requests_map_within (p : Exchanger) (notices : List Authenticator.Notice) :
    (requests (notices.map (Notice.within p))).length = (Authenticator.posts notices).length ∧
      ∀ r ∈ requests (notices.map (Notice.within p)), ∃ i, .sent i r ∈ notices := by
  induction notices with
  | nil => exact ⟨rfl, List.forall_mem_nil _⟩
  | cons n notices ih =>
    obtain ⟨hlength, hmem⟩ := ih
    have htail : ∀ r ∈ requests (notices.map (Notice.within p)), ∃ i, .sent i r ∈ n :: notices :=
      fun r hr => (hmem r hr).imp fun i hi => List.mem_cons_of_mem n hi
    cases n with
    | sent i r =>
      refine ⟨congrArg (· + 1) hlength, fun r' hr => ?_⟩
      rcases List.mem_cons.mp hr with rfl | hr
      · exact ⟨i, List.mem_cons_self⟩
      · exact htail r' hr
    | granted | ended | recorded | answered => exact ⟨hlength, htail⟩

theorem setProvider_self {g : Guarded} (hg : s.provider? p = some g) : s.setProvider p g = s := by
  rcases p with (_ | _) | n
  · exact congrArg (fun kubernetes => { s with kubernetes }) hg.symm
  · exact congrArg (fun renewal => { s with renewal }) hg.symm
  · obtain ⟨hn, rfl⟩ := List.getElem?_eq_some_iff.mp hg
    exact congrArg (fun guests => { s with guests }) (List.set_getElem_self hn)

/-- Inside a provider whose calls are over nothing happens. -/
theorem within_of_over (env : Surroundings) {own : Authenticator.Event}
    (h : ∀ g, s.provider? p = some g → ∀ (j : Nat) (c : Authenticator.Call),
      g.strategy.calls[j]? = some c → ∃ answer, c.phase = .finished answer)
    (hown : own.isStepOrReply = true) : s.within env p own = (s, []) := by
  rw [within]
  split
  · rfl
  · rename_i g hg
    rw [Authenticator.step_of_over g.method env (h g hg) hown]
    exact congrArg (·, []) (setProvider_self hg)

end Services

/-! ### Before anything is sent -/

/-- Whether a setup has a strategy under a name: the fallback strategy always, a provider if there
are settings for it. -/
def Setup.Offers (setup : Setup) (name : String) : Prop :=
  name = fallbackMethod ∨
    setup.token.isSome = true ∧ name = Provider.renewal.method ∨
    setup.kubernetes.isSome = true ∧ name = Provider.kubernetes.method

namespace Startup

variable {setup : Setup} {reports : Bool} {env : Surroundings} {st : Startup}
  {past new : List Services.Notice}

/-- The service account token of some settings is neither given nor in a place that exists. -/
def Accountless (files : FileTree) (k : KubernetesSettings) : Prop :=
  k.inlineToken = none ∧ files.leadsSomewhere k.tokenFile = false

/-- The failure of settings without a service account token. -/
def accountless (k : KubernetesSettings) : Failure :=
  .configuration ("Service account token file " ++ k.tokenFile ++
    " does not exist and no service account token is configured")

theorem ofKubernetes_cases (files : FileTree) (k : KubernetesSettings) :
    Accountless files k ∧ Method.ofKubernetes k files = .error (accountless k) ∨
      ¬Accountless files k ∧ ∃ account threshold,
        Method.ofKubernetes k files = .ok (.kubernetes k.url k.role account threshold) := by
  rw [Method.ofKubernetes, ServiceAccount.make]
  by_cases h : (k.inlineToken.isNone && !files.leadsSomewhere k.tokenFile) = true
  · left
    rw [if_pos h]
    exact ⟨by simpa [Accountless] using h, rfl⟩
  · right
    rw [if_neg h]
    exact ⟨by simpa [Accountless] using h, _, _, rfl⟩

/-- The services of a setup before the first login. -/
structure Wired (setup : Setup) (s : Services) : Prop where
  /-- There is no scheduler. -/
  schedulers : s.schedulers = []
  /-- There is no errand. -/
  tasks : s.tasks = #[]
  /-- Nobody has called another provider than the one that logs in. -/
  others : ∀ p g, p ≠ .kubernetes → s.provider? p = some g → g.strategy = .initial
  /-- Without settings there is no provider that logs in. -/
  kubernetes_none : setup.kubernetes = none → s.kubernetes = none
  /-- With settings there is one, which nobody has called. -/
  kubernetes_some : ∀ k, setup.kubernetes = some k → ∃ account threshold,
    s.kubernetes = some ⟨.kubernetes k.url k.role account threshold, .initial⟩
  /-- The strategies of the setup are registered. -/
  registered : ∀ name, (s.registry.find? name).isSome = true ↔ setup.Offers name

/-- Nobody has called any provider. -/
theorem Wired.strategy_eq {setup : Setup} {s : Services} (h : Wired setup s) {p : Exchanger}
    {g : Guarded} (hg : s.provider? p = some g) : g.strategy = .initial := by
  by_cases hp : p = .kubernetes
  · subst hp
    cases hk : setup.kubernetes with
    | none => cases (h.kubernetes_none hk).symm.trans hg
    | some k =>
      obtain ⟨account, threshold, hprovider⟩ := h.kubernetes_some k hk
      rw [← Option.some.inj (hprovider.symm.trans hg)]
  · exact h.others p g hp hg

theorem isSome_find?_register (r : Registry) (name other : String) (strategy : Strategy) :
    ((r.register name strategy).find? other).isSome = true ↔
      other = name ∨ (r.find? other).isSome = true := by
  by_cases h : other = name
  · subst h
    simp
  · rw [Registry.find?_register_of_ne r strategy h]
    simp [h]

theorem isSome_find?_initial (token name : String) :
    ((Registry.initial token).find? name).isSome = true ↔ name = fallbackMethod := by
  by_cases h : name = fallbackMethod
  · subst h
    simp
  · have hne : ¬fallbackMethod = name := fun heq => h heq.symm
    simp [Registry.initial, Registry.find?, h, hne]

theorem wired_initial (vault : VaultSettings) :
    Wired ⟨vault, none, none⟩ (Services.initial vault) := by
  constructor
  · rfl
  · rfl
  · rintro ((_ | _) | n) g - hg <;> cases hg
  · intro _
    rfl
  · intro k hk
    cases hk
  · intro name
    rw [Services.initial, isSome_find?_initial]
    simp [Setup.Offers]

theorem Wired.provide_renewal {vault : VaultSettings} {s : Services}
    (h : Wired ⟨vault, none, none⟩ s) (t : TokenSettings) :
    Wired ⟨vault, none, some t⟩ (s.provide .renewal (.ofToken t)) := by
  constructor
  · exact h.schedulers
  · exact h.tasks
  · intro p g hp hg
    by_cases hrenewal : p = .renewal
    · subst hrenewal
      rw [← Option.some.inj hg]
    · have hg' : (s.setProvider .renewal ⟨.ofToken t, .initial⟩).provider? p = some g := by
        rcases p with (_ | _) | n <;> exact hg
      exact h.others p g hp ((Services.provider?_setProvider_of_ne s _ hrenewal).symm.trans hg')
  · intro _
    exact h.kubernetes_none rfl
  · intro k hk
    cases hk
  · intro name
    rw [Services.provide, isSome_find?_register, h.registered]
    simp [Setup.Offers, or_comm]

theorem Wired.provide_kubernetes {vault : VaultSettings} {token : Option TokenSettings}
    {s : Services} (h : Wired ⟨vault, none, token⟩ s) (k : KubernetesSettings)
    (account : ServiceAccount) (threshold : Span) :
    Wired ⟨vault, some k, token⟩
      (s.provide .kubernetes (.kubernetes k.url k.role account threshold)) := by
  constructor
  · exact h.schedulers
  · exact h.tasks
  · intro p g hp hg
    refine h.others p g hp ?_
    rcases p with (_ | _) | n <;> first | exact hg | exact absurd rfl hp
  · intro hnone
    cases hnone
  · intro k' hk
    obtain rfl := Option.some.inj hk
    exact ⟨account, threshold, rfl⟩
  · intro name
    rw [Services.provide, isSome_find?_register, h.registered]
    simp [Setup.Offers, or_comm, or_left_comm]

theorem wired_cases (setup : Setup) (files : FileTree) :
    (∃ k, setup.kubernetes = some k ∧ Accountless files k ∧
        wired setup files = .error (accountless k)) ∨
      (∀ k, setup.kubernetes = some k → ¬Accountless files k) ∧
        ∃ s, wired setup files = .ok s ∧ Wired setup s := by
  obtain ⟨vault, kubernetes, token⟩ := setup
  have hbase : Wired ⟨vault, none, token⟩ (token.elim (Services.initial vault) fun t =>
      (Services.initial vault).provide .renewal (.ofToken t)) := by
    cases token with
    | none => exact wired_initial vault
    | some t => exact (wired_initial vault).provide_renewal t
  cases kubernetes with
  | none =>
    refine .inr ⟨?_, _, rfl, hbase⟩
    intro k hk
    cases hk
  | some k =>
    rcases ofKubernetes_cases files k with ⟨hk, hmethod⟩ | ⟨hk, account, threshold, hmethod⟩
    · exact .inl ⟨k, rfl, hk, by simp only [wired, hmethod]⟩
    · refine .inr ⟨?_, _, by simp only [wired, hmethod], hbase.provide_kubernetes k account threshold⟩
      intro k' hk'
      obtain rfl := Option.some.inj hk'
      exact hk

/-- The strategy of a setup is looked up once its providers are wired; with a Kubernetes provider the
first login begins, without one the startup goes on at once. -/
theorem begin_of_wired {s : Services} (hwired : wired setup env.files = .ok s)
    (h : Wired setup s) (reports : Bool) :
    ¬setup.Offers setup.vault.method ∧
        begin setup reports env = .error (Registry.unknown setup.vault.method) ∨
      setup.Offers setup.vault.method ∧
        (setup.kubernetes = none ∧
            begin setup reports env = .ok (launch env ⟨setup, reports, s, .started⟩ none) ∨
          setup.kubernetes.isSome = true ∧
            begin setup reports env = .ok ⟨setup, reports,
              (s.within env .kubernetes (.begin .login)).1, .loggingIn 0⟩) := by
  have hoffers := h.registered setup.vault.method
  cases hfind : s.registry.find? setup.vault.method with
  | none =>
    rw [hfind] at hoffers
    exact .inl ⟨fun ho => (by cases hoffers.mpr ho),
      by simp only [begin, hwired, Registry.resolve, hfind]⟩
  | some strategy =>
    rw [hfind] at hoffers
    refine .inr ⟨hoffers.mp rfl, ?_⟩
    cases hk : setup.kubernetes with
    | none =>
      have hnext : s.nextCall? .kubernetes = none := by
        rw [Services.nextCall?, Services.provider?, h.kubernetes_none hk]
        rfl
      exact .inl ⟨rfl, by simp only [begin, hwired, Registry.resolve, hfind, hnext]⟩
    | some k =>
      obtain ⟨account, threshold, hprovider⟩ := h.kubernetes_some k hk
      have hnext : s.nextCall? .kubernetes = some 0 := by
        rw [Services.nextCall?, Services.provider?, hprovider]
        rfl
      exact .inr ⟨rfl, by simp only [begin, hwired, Registry.resolve, hfind, hnext]⟩

/-- The services of a setup have its settings, and the provider that renews a token has its
token. -/
theorem parts_of_wired {s : Services} {files : FileTree} (h : wired setup files = .ok s) :
    s.settings = setup.vault ∧ s.renewal = setup.token.map (⟨.ofToken ·, .initial⟩) ∧
      s.guests = [] := by
  have htoken : ∀ kubernetes : Option Guarded, ∀ registry,
      let s := { setup.token.elim (Services.initial setup.vault) fun t =>
        (Services.initial setup.vault).provide .renewal (.ofToken t) with kubernetes, registry }
      s.settings = setup.vault ∧ s.renewal = setup.token.map (⟨.ofToken ·, .initial⟩) ∧
        s.guests = [] := by
    intro kubernetes registry
    cases setup.token <;> exact ⟨rfl, rfl, rfl⟩
  unfold wired at h
  simp only at h
  split at h
  · rw [← Except.ok.inj h]
    exact htoken _ _
  · split at h
    · cases h
    · rw [← Except.ok.inj h]
      exact htoken _ _

/-- How a startup has begun that did not fail at once. -/
theorem begin_eq_ok (h : begin setup reports env = .ok st) :
    ∃ s, wired setup env.files = .ok s ∧ Wired setup s ∧ setup.Offers setup.vault.method ∧
      (setup.kubernetes = none ∧ st = launch env ⟨setup, reports, s, .started⟩ none ∨
        ∃ k account threshold, setup.kubernetes = some k ∧
          s.kubernetes = some ⟨.kubernetes k.url k.role account threshold, .initial⟩ ∧
            st = ⟨setup, reports, (s.within env .kubernetes (.begin .login)).1, .loggingIn 0⟩) := by
  rcases wired_cases setup env.files with ⟨k, -, -, hwired⟩ | ⟨-, s, hwired, hs⟩
  · simp only [begin, hwired] at h
    cases h
  refine ⟨s, hwired, hs, ?_⟩
  rcases begin_of_wired hwired hs reports with
    ⟨-, hbegin⟩ | ⟨hoffers, ⟨hnone, hbegin⟩ | ⟨hsome, hbegin⟩⟩
  · rw [hbegin] at h
    cases h
  · exact ⟨hoffers, .inl ⟨hnone, (Except.ok.inj (hbegin.symm.trans h)).symm⟩⟩
  · obtain ⟨k, hk⟩ := Option.isSome_iff_exists.mp hsome
    obtain ⟨account, threshold, hprovider⟩ := hs.kubernetes_some k hk
    exact ⟨hoffers, .inr ⟨k, account, threshold, hk, hprovider,
      (Except.ok.inj (hbegin.symm.trans h)).symm⟩⟩

/-- **What fails before anything is sent**: a missing service account token, and then a strategy
that the setup does not have. -/
theorem begin_error_cases (setup : Setup) (reports : Bool) (env : Surroundings) (f : Failure) :
    begin setup reports env = .error f ↔
      (∃ k, setup.kubernetes = some k ∧ Accountless env.files k ∧ f = accountless k) ∨
        (∀ k, setup.kubernetes = some k → ¬Accountless env.files k) ∧
          ¬setup.Offers setup.vault.method ∧ f = Registry.unknown setup.vault.method := by
  rcases wired_cases setup env.files with ⟨k, hk, haccount, hwired⟩ | ⟨haccount, s, hwired, h⟩
  · have hbegin : begin setup reports env = .error (accountless k) := by
      simp only [begin, hwired]
    rw [hbegin, Except.error.injEq]
    constructor
    · rintro rfl
      exact .inl ⟨k, hk, haccount, rfl⟩
    · rintro (⟨k', hk', -, rfl⟩ | ⟨hnone, -⟩)
      · rw [Option.some.inj (hk.symm.trans hk')]
      · exact absurd haccount (hnone k hk)
  · have hleft : ¬∃ k, setup.kubernetes = some k ∧ Accountless env.files k ∧ f = accountless k := by
      rintro ⟨k, hk, hk', -⟩
      exact haccount k hk hk'
    rcases begin_of_wired hwired h reports with ⟨hoffers, hbegin⟩ | ⟨hoffers, hbegin⟩
    · rw [hbegin, Except.error.injEq]
      constructor
      · rintro rfl
        exact .inr ⟨haccount, hoffers, rfl⟩
      · rintro (hf | ⟨-, -, rfl⟩)
        · exact absurd hf hleft
        · rfl
    · have hok : begin setup reports env ≠ .error f := by
        intro hbegin'
        rcases hbegin with ⟨-, hbegin⟩ | ⟨-, hbegin⟩ <;> cases hbegin.symm.trans hbegin'
      constructor
      · intro hbegin'
        exact absurd hbegin' hok
      · rintro (hf | ⟨-, hf, -⟩)
        · exact absurd hf hleft
        · exact absurd hoffers hf

/-! ### During the first login -/

/-- What the first login has come to. -/
def login? (st : Startup) : Option (Except Failure Issued) :=
  match st.services.answer? .kubernetes 0 with
  | some (.issued result) => some result
  | _ => none

/-- Whether an event happens by itself. -/
def Event.isOwn : Event → Bool
  | .services e => e.isOwn
  | .proceed => true

/-- A startup whose first login is under way or has failed: nobody has asked anything else, there is
no scheduler, and whatever was let known is of that one call. -/
structure Attempt (m : Method) (st : Startup) (past : List Services.Notice) : Prop where
  /-- There is no scheduler. -/
  schedulers : st.services.schedulers = []
  /-- There is no errand. -/
  tasks : st.services.tasks = #[]
  /-- The provider has the one call, and everything let known is of it. -/
  login : ∃ (env : Surroundings) (own : List (Surroundings × Authenticator.Event)),
    (∀ x ∈ own, x.2.isStepOrReply = true) ∧
      st.services.kubernetes = some ⟨m, (Authenticator.login m env own).1⟩ ∧
      past = (Authenticator.login m env own).2.map (Services.Notice.within .kubernetes)
  /-- Nobody has called another provider. -/
  others : ∀ p g, p ≠ .kubernetes → st.services.provider? p = some g → g.strategy = .initial
  /-- The login is under way, or it has failed and the startup with it. -/
  stage : st.stage = .loggingIn 0 ∨
    ∃ f, st.stage = .failed (loginFailed f) ∧ st.login? = some (.error f)

/-- A startup whose first login has succeeded, or that needs none. -/
structure Launched (st : Startup) : Prop where
  /-- Health is checked, or the services are up. -/
  stage : st.stage = .started ∨ ∃ i stage past, st.stage = .checking i ∧
    st.services.tasks[i]? = some ⟨.health, stage⟩ ∧
      Services.HealthCourse st.services.settings i stage (Services.about i past)
  /-- No first login has failed. -/
  login : st.services.provider? .kubernetes = none ∨
    ∃ issued, st.services.answer? .kubernetes 0 = some (.issued (.ok issued))

theorem login?_eq_some {result : Except Failure Issued} :
    st.login? = some result ↔ st.services.answer? .kubernetes 0 = some (.issued result) := by
  rw [login?]
  constructor
  · intro h
    split at h
    · rename_i result' ha
      rw [ha, Option.some.inj h]
    · cases h
  · intro h
    rw [h]

/-- What happens by itself during the first login happens to that one call. -/
theorem Attempt.own {m : Method} (h : Attempt m st past) {e : Services.Event}
    (he : e.isOwn = true) (env : Surroundings) :
    Attempt m { st with services := (st.services.step env e).1 }
      (past ++ (st.services.step env e).2) := by
  rcases Services.step_of_bare env h.tasks h.schedulers he with hstep | ⟨p, event, hevent, hstep⟩
  · rw [hstep, List.append_nil]
    exact h
  rw [hstep]
  by_cases hp : p ≠ .kubernetes
  · rw [Services.within_of_over env ?_ hevent, List.append_nil]
    · exact h
    · intro g hg j c hc
      rw [h.others p g hp hg] at hc
      cases hc
  · obtain rfl := Decidable.of_not_not hp
    have hanswer : ∀ answer, st.services.answer? .kubernetes 0 = some answer →
        (st.services.within env .kubernetes event).1.answer? .kubernetes 0 = some answer :=
      fun answer ha =>
        ((Services.traces_within env st.services .kubernetes .kubernetes event).answer? ha).1
    obtain ⟨env₀, own, hown, hprovider, hpast⟩ := h.login
    have hwithin : st.services.within env .kubernetes event
        = (st.services.setProvider .kubernetes
            ⟨m, (Authenticator.login m env₀ (own ++ [(env, event)])).1⟩,
          (((Authenticator.login m env₀ own).1.step m env event).2.map
            (Services.Notice.within .kubernetes))) := by
      rw [Services.within, Services.provider?, hprovider, Authenticator.login_append]
      rfl
    rw [hwithin] at hanswer ⊢
    refine ⟨?_, ?_, ⟨env₀, own ++ [(env, event)], ?_, rfl, ?_⟩, ?_, ?_⟩
    · exact h.schedulers
    · exact h.tasks
    · intro x hx
      rcases List.mem_append.mp hx with hx | hx
      · exact hown x hx
      · rw [List.mem_singleton.mp hx]
        exact hevent
    · rw [hpast, Authenticator.login_append, List.map_append]
      simp [Authenticator.run]
    · intro q g hq hg
      exact h.others q g hq ((Services.provider?_setProvider_of_ne _ _ hq).symm.trans hg)
    · rcases h.stage with hstage | ⟨f, hstage, hlogin⟩
      · exact .inl hstage
      · exact .inr ⟨f, hstage, login?_eq_some.mpr (hanswer _ (login?_eq_some.mp hlogin))⟩

/-- Once the first login has succeeded, or if there is none, the startup goes on. -/
theorem launched_launch (env : Surroundings) (issued : Option Issued)
    (htasks : st.services.tasks = #[])
    (hlogin : st.services.provider? .kubernetes = none ∨
      ∃ issued, st.services.answer? .kubernetes 0 = some (.issued (.ok issued))) :
    Launched (st.launch env issued) := by
  rw [launch]
  split
  · refine ⟨.inr ⟨0, .begun, [], ?_, ?_, .begun⟩, hlogin⟩
    · rw [htasks]
      rfl
    · simp [Services.step, htasks]
  · exact ⟨.inl rfl, hlogin⟩

/-- When the first login is over, the startup fails with it or goes on. -/
theorem Attempt.proceed {m : Method} (h : Attempt m st past) (env : Surroundings) :
    Attempt m (st.proceed env) past ∨ Launched (st.proceed env) := by
  rcases h.stage with hstage | ⟨f, hstage, hlogin⟩
  · rw [Startup.proceed, hstage]
    simp only
    split
    · rename_i issued ha
      exact .inr (launched_launch env _ h.tasks (.inr ⟨issued, ha⟩))
    · rename_i f ha
      exact .inl ⟨h.schedulers, h.tasks, h.login, h.others,
        .inr ⟨f, rfl, login?_eq_some.mpr ha⟩⟩
    · exact .inl h
  · rw [Startup.proceed, hstage]
    exact .inl h

theorem Attempt.proceed_of_error {m : Method} (h : Attempt m st past) {g : Failure}
    (hlogin : st.login? = some (.error g)) (next : Surroundings) :
    (st.proceed next).stage = .failed (loginFailed g) := by
  rcases h.stage with hstage | ⟨g', hstage, hlogin'⟩
  · have ha := login?_eq_some.mp hlogin
    simp only [Startup.proceed, hstage, ha]
  · cases hlogin.symm.trans hlogin'
    simp only [Startup.proceed, hstage]

/-- **A startup that goes on does not fail any more**, whatever comes of health and of renewals. -/
theorem Launched.step (h : Launched st) (env : Surroundings) (e : Event) :
    Launched (st.step env e).1 := by
  cases e with
  | services e =>
    have hchange := Services.change_step env st.services e
    constructor
    · rcases h.stage with hstage | ⟨i, stage, past, hstage, htask, hcourse⟩
      · exact .inl hstage
      · obtain ⟨next, htask', hcourse'⟩ := hchange.healthCourse htask hcourse
        exact .inr ⟨i, next, _, hstage, htask', hcourse'⟩
    · obtain ⟨own, htraces⟩ := hchange.traces .kubernetes
      rcases h.login with hnone | ⟨issued, hanswer⟩
      · exact .inl (by rw [show (st.step env (.services e)).1.services.provider? .kubernetes = _ from
          htraces.provider, hnone]; rfl)
      · exact .inr ⟨issued, (htraces.answer? hanswer).1⟩
  | proceed =>
    show Launched (st.proceed env)
    rcases h.stage with hstage | ⟨i, stage, past, hstage, htask, hcourse⟩
    · rw [Startup.proceed, hstage]
      exact h
    · rw [Startup.proceed, hstage]
      simp only
      split
      · exact ⟨.inl rfl, h.login⟩
      · exact h

theorem launched_run (h : Launched st) (events : List (Surroundings × Event)) :
    Launched (st.run events).1 := by
  induction events generalizing st with
  | nil => exact h
  | cons x rest ih =>
    obtain ⟨env, e⟩ := x
    exact ih (h.step env e)

theorem Launched.not_failed (h : Launched st) (f : Failure) : st.stage ≠ .failed f := by
  rcases h.stage with hstage | ⟨i, stage, past, hstage, -⟩ <;> rw [hstage] <;> exact nofun

theorem Launched.not_loggingIn (h : Launched st) (call : Nat) : st.stage ≠ .loggingIn call := by
  rcases h.stage with hstage | ⟨i, stage, past, hstage, -⟩ <;> rw [hstage] <;> exact nofun

theorem Launched.login_ne_error (h : Launched st) (f : Failure) : st.login? ≠ some (.error f) := by
  intro hlogin
  have ha := login?_eq_some.mp hlogin
  rcases h.login with hnone | ⟨issued, hanswer⟩
  · rw [Services.answer?, hnone] at ha
    cases ha
  · cases hanswer.symm.trans ha

/-- What happens by itself leaves a startup with its first login, or lets it go on for good. -/
theorem Attempt.run {m : Method} (h : Attempt m st past) {events : List (Surroundings × Event)}
    (hown : ∀ x ∈ events, x.2.isOwn = true) :
    Attempt m (st.run events).1 (past ++ (st.run events).2) ∨ Launched (st.run events).1 := by
  induction events generalizing st past with
  | nil =>
    rw [Startup.run, List.append_nil]
    exact .inl h
  | cons x rest ih =>
    obtain ⟨env, e⟩ := x
    have hrest : ∀ x ∈ rest, x.2.isOwn = true := fun x hx => hown x (List.mem_cons_of_mem _ hx)
    have he : e.isOwn = true := hown _ List.mem_cons_self
    cases e with
    | services e =>
      have h' := ih (h.own he env) hrest
      rwa [List.append_assoc] at h'
    | proceed =>
      rcases h.proceed env with h' | h'
      · exact ih h' hrest
      · exact .inr (launched_run h' rest)

/-- The one call is over once the startup has failed. -/
theorem Attempt.calls_of_failed {m : Method} (h : Attempt m st past) {f : Failure}
    (hstage : st.stage = .failed f) (p : Exchanger) :
    ∀ g, st.services.provider? p = some g → ∀ (j : Nat) (c : Authenticator.Call),
      g.strategy.calls[j]? = some c → ∃ answer, c.phase = .finished answer := by
  intro g hg j c hc
  by_cases hp : p ≠ .kubernetes
  · rw [h.others p g hp hg] at hc
    cases hc
  · obtain rfl := Decidable.of_not_not hp
    obtain ⟨env₀, own, hown, hprovider, -⟩ := h.login
    obtain ⟨phase, -, hcalls⟩ := Authenticator.lone_login m env₀ hown
    rcases h.stage with hlogging | ⟨f', -, hlogin⟩
    · rw [hlogging] at hstage
      cases hstage
    have ha := login?_eq_some.mp hlogin
    rw [Services.answer?, Services.provider?, hprovider, Option.bind_some] at ha
    obtain ⟨d, hfinished⟩ := Authenticator.answer?_eq_some.mp ha
    obtain rfl : (⟨m, (Authenticator.login m env₀ own).1⟩ : Guarded) = g :=
      Option.some.inj (hprovider.symm.trans hg)
    cases j with
    | zero => exact ⟨_, congrArg Authenticator.Call.phase (Option.some.inj (hc.symm.trans hfinished))⟩
    | succ j =>
      rw [hcalls] at hc
      cases hc

/-- **A startup that failed stays exactly as it is**: by itself nothing happens any more. -/
theorem Attempt.run_of_failed {m : Method} (h : Attempt m st past) {f : Failure}
    (hstage : st.stage = .failed f) {events : List (Surroundings × Event)}
    (hown : ∀ x ∈ events, x.2.isOwn = true) : st.run events = (st, []) := by
  induction events with
  | nil => rfl
  | cons x rest ih =>
    obtain ⟨env, e⟩ := x
    have he : e.isOwn = true := hown _ List.mem_cons_self
    have hstep : st.step env e = (st, []) := by
      cases e with
      | services e =>
        have hquiet : st.services.step env e = (st.services, []) := by
          rcases Services.step_of_bare env h.tasks h.schedulers he with hs | ⟨p, own, hown, hs⟩
          · exact hs
          · rw [hs, Services.within_of_over env (h.calls_of_failed hstage p) hown]
        simp only [Startup.step, hquiet]
      | proceed => simp only [Startup.step, Startup.proceed, hstage]
    rw [Startup.run, hstep]
    simp only [ih fun x hx => hown x (List.mem_cons_of_mem _ hx), List.nil_append]

/-- **By the time a startup fails, it has sent one login at most.** -/
theorem Attempt.requests {m : Method} (h : Attempt m st past) :
    (Services.requests past).length ≤ 1 ∧
      ∀ r ∈ Services.requests past, ∃ files, m.prepare files = .ok r := by
  obtain ⟨env, own, hown, -, hpast⟩ := h.login
  obtain ⟨hlength, hsent⟩ :=
    Services.requests_map_within .kubernetes (Authenticator.login m env own).2
  rw [hpast]
  constructor
  · rw [hlength]
    exact Authenticator.posts_login m env hown
  · intro r hr
    obtain ⟨i, hi⟩ := hsent r hr
    exact Authenticator.prepared_run m _ _ i r hi

/-! ### Where nothing can happen -/

/-- Nothing can happen by itself, and no request waits for a reply. -/
structure Still (st : Startup) : Prop where
  /-- The startup cannot take a step. -/
  startup : st.canProceed = false
  /-- No errand can take a step or waits for a reply. -/
  tasks : ∀ (i : Nat) (task : Task), st.services.tasks[i]? = some task →
    st.services.canProceed task = false ∧ ∀ r, task.stage ≠ .exchanging r
  /-- No call to a provider can take a step or waits for a reply. -/
  providers : ∀ p g, st.services.provider? p = some g → g.strategy.Still

theorem Attempt.over_of_still {m : Method} (h : Attempt m st past) (hstill : st.Still) :
    ∃ f, st.stage = .failed f := by
  rcases h.stage with hstage | ⟨f, hstage, -⟩
  · exfalso
    have hnone : st.services.answer? .kubernetes 0 = none := by
      have hproceed := hstill.startup
      rw [canProceed, hstage] at hproceed
      exact Option.not_isSome_iff_eq_none.mp (by simpa using hproceed)
    obtain ⟨env, own, hown, hprovider, -⟩ := h.login
    obtain ⟨phase, hphase, hcalls⟩ := Authenticator.lone_login m env hown
    have hcall : (Authenticator.login m env own).1.calls[0]? = some ⟨.login, phase⟩ := by
      rw [hcalls]
      rfl
    have hquiet := hstill.providers .kubernetes _ hprovider
    have hover := (Authenticator.orderly_run Authenticator.orderly_initial m
      ((env, .begin .login) :: own)).isOver_of_still (fun i => (hquiet i).1)
      (fun i => (hquiet i).2) hcall
    cases phase with
    | finished answer =>
      rw [Services.answer?, Services.provider?, hprovider, Option.bind_some,
        Authenticator.answer?_eq_some.mpr ⟨_, hcall⟩] at hnone
      cases hnone
    | cancelled => exact hphase rfl
    | _ => cases hover
  · exact ⟨_, hstage⟩

theorem Launched.over_of_still (h : Launched st) (hstill : st.Still) : st.stage = .started := by
  rcases h.stage with hstage | ⟨i, stage, past, hstage, htask, hcourse⟩
  · exact hstage
  · exfalso
    obtain ⟨hproceed, hexchanging⟩ := hstill.tasks i _ htask
    have hfinished : ∃ outcome, stage = .finished outcome := by
      generalize Services.about i past = before at hcourse
      cases hcourse with
      | begun => cases hproceed
      | sent => exact absurd rfl (hexchanging _)
      | refused | answered => exact ⟨_, rfl⟩
    obtain ⟨outcome, rfl⟩ := hfinished
    have houtcome : st.services.outcome? i = some outcome := by
      simp only [Services.outcome?, htask]
    have hstartup := hstill.startup
    rw [canProceed, hstage] at hstartup
    simp [houtcome] at hstartup

end Startup

/-! ### Over a network -/

namespace Services

variable {network : Network} {env : Surroundings} {s : Services} {e : Event}
  {among : Guarded → Nat → Bool} {reply? : Request → Option Reply} {p : Exchanger}

theorem isOwn_readyTask? (h : s.readyTask? = some e) : e.isOwn = true := by
  obtain ⟨i, -, rfl⟩ := Option.map_eq_some_iff.mp h
  rfl

theorem isOwn_readyCall? (h : s.readyCall? among p = some e) : e.isOwn = true := by
  obtain ⟨g, -, h⟩ := Option.bind_eq_some_iff.mp h
  obtain ⟨i, -, rfl⟩ := Option.map_eq_some_iff.mp h
  rfl

theorem isOwn_repliedCall? (h : s.repliedCall? reply? p = some e) : e.isOwn = true := by
  obtain ⟨g, -, h⟩ := Option.bind_eq_some_iff.mp h
  obtain ⟨i, -, h⟩ := List.exists_of_findSome?_eq_some h
  obtain ⟨reply, -, rfl⟩ := Option.map_eq_some_iff.mp h
  rfl

theorem isOwn_repliedTask? (h : s.repliedTask? reply? = some e) : e.isOwn = true := by
  obtain ⟨i, -, h⟩ := List.exists_of_findSome?_eq_some h
  split at h
  · obtain ⟨reply, -, rfl⟩ := Option.map_eq_some_iff.mp h
    rfl
  · cases h

theorem isOwn_readyScheduler? (h : s.readyScheduler? env = some e) : e.isOwn = true := by
  obtain ⟨k, -, h⟩ := List.exists_of_findSome?_eq_some h
  split at h
  · cases h
  · split at h
    · cases h
      rfl
    · split at h
      · cases h
        rfl
      · cases h

/-- What happens next happens by itself. -/
theorem isOwn_next? (h : s.next? network env = some e) : e.isOwn = true := by
  simp only [next?, replied?, Option.orElse_eq_orElse, Option.orElse_eq_or, Option.or_eq_some_iff]
    at h
  rcases h with h | ⟨-, h | ⟨-, h | ⟨-, h | ⟨-, h⟩⟩⟩⟩
  · exact isOwn_readyTask? h
  · obtain ⟨p, -, h⟩ := List.exists_of_findSome?_eq_some h
    exact isOwn_readyCall? h
  · exact isOwn_readyScheduler? h
  · exact isOwn_repliedTask? h
  · obtain ⟨p, -, h⟩ := List.exists_of_findSome?_eq_some h
    exact isOwn_repliedCall? h

end Services

namespace Startup

variable {setup : Setup} {reports : Bool} {env : Surroundings} {st : Startup}
  {past : List Services.Notice}

/-- **Over a network, a startup is a run of what happens by itself.** -/
theorem exhaust_turn_eq_run (network : Network) (env : Surroundings) (fuel : Nat) (st : Startup) :
    ∃ events : List (Surroundings × Event), (∀ x ∈ events, x.2.isOwn = true) ∧
      exhaust (turn network env) fuel st = st.run events := by
  induction fuel generalizing st with
  | zero => exact ⟨[], List.forall_mem_nil _, rfl⟩
  | succ fuel ih =>
    have hturn : turn network env st = none ∨
        ∃ e : Event, e.isOwn = true ∧ turn network env st = some (st.step env e) := by
      rw [turn]
      split
      · exact .inl rfl
      · split
        · exact .inr ⟨.proceed, rfl, rfl⟩
        · cases hnext : st.services.next? network env with
          | none => exact .inl rfl
          | some e => exact .inr ⟨.services e, Services.isOwn_next? hnext, rfl⟩
    rcases hturn with hnone | ⟨e, he, hsome⟩
    · exact ⟨[], List.forall_mem_nil _, exhaust_of_none hnone _⟩
    · obtain ⟨events, hown, hrest⟩ := ih (st.step env e).1
      refine ⟨(env, e) :: events, List.forall_mem_cons.mpr ⟨he, hown⟩, ?_⟩
      rw [exhaust, hsome]
      simp only [hrest, run]

/-- The one call, in its phase. -/
theorem Attempt.lone {m : Method} (h : Attempt m st past) :
    ∃ a phase, st.services.kubernetes = some ⟨m, a⟩ ∧ phase ≠ .cancelled ∧
      a.calls = #[⟨.login, phase⟩] ∧ Authenticator.Orderly a ∧ Authenticator.Suited a := by
  obtain ⟨env, own, hown, hprovider, -⟩ := h.login
  obtain ⟨phase, hphase, hcalls⟩ := Authenticator.lone_login m env hown
  exact ⟨_, phase, hprovider, hphase, hcalls,
    Authenticator.orderly_run Authenticator.orderly_initial m _, Authenticator.suited_run m _⟩

/-- The one call is answered as a login. -/
theorem Attempt.issued {m : Method} (h : Attempt m st past) {answer : Authenticator.Answer}
    (ha : st.services.answer? .kubernetes 0 = some answer) : ∃ result, answer = .issued result := by
  obtain ⟨a, phase, hprovider, -, hcalls, -, hsuited⟩ := h.lone
  rw [Services.answer?, Services.provider?, hprovider, Option.bind_some] at ha
  obtain ⟨d, hc⟩ := Authenticator.answer?_eq_some.mp ha
  have hd := hsuited 0 _ hc
  rw [show a.calls[0]? = some ⟨.login, phase⟩ by rw [hcalls]; rfl] at hc
  obtain ⟨rfl, -⟩ := Authenticator.Call.mk.inj (Option.some.inj hc)
  cases answer with
  | issued result => exact ⟨result, rfl⟩
  | token => cases hd

/-- How many steps the calls to the Kubernetes provider can still take. -/
def loginSteps (st : Startup) : Nat := st.services.kubernetes.elim 0 Guarded.stepsLeft

theorem Attempt.loginSteps_lt {m : Method} {a : Authenticator} {own : Authenticator.Event}
    (hprovider : st.services.kubernetes = some ⟨m, a⟩) (hmoved : a.isMovedBy own = true)
    (hown : own.isStepOrReply = true) (hlone : a.Lone) (env : Surroundings) :
    loginSteps { st with services := (st.services.within env .kubernetes own).1 }
      < loginSteps st := by
  have hchange := Authenticator.change_step m env a own
  obtain ⟨next, -, hcalls'⟩ := hlone.step hchange hown
  obtain ⟨phase, -, hcalls⟩ := hlone
  have hsteps := hchange.stepsLeft_le
  rw [hcalls, hcalls', if_pos hmoved] at hsteps
  simp only [loginSteps, Services.within, Services.provider?, hprovider]
  show (a.step m env own).1.stepsLeft < a.stepsLeft
  exact Nat.lt_of_succ_le (Nat.le_of_add_le_add_right hsteps)

/-- A call that can take a step is the first to do something. -/
theorem next?_of_isReady {m : Method} {a : Authenticator} {phase : Authenticator.Phase}
    (htasks : st.services.tasks = #[]) (hprovider : st.services.kubernetes = some ⟨m, a⟩)
    (hcalls : a.calls = #[⟨.login, phase⟩]) (hready : a.isReady 0 = true) (network : Network)
    (env : Surroundings) :
    st.services.next? network env = some (.advance .kubernetes 0) := by
  have htask : st.services.readyTask? = none := by
    simp [Services.readyTask?, htasks]
  have hfirst : st.services.readyCall? (fun _ _ => true) .kubernetes
      = some (.advance .kubernetes 0) := by
    simp [Services.readyCall?, Services.provider?, hprovider, hcalls, hready]
  simp only [Services.next?, htask, Services.exchangers, List.findSome?_cons, hfirst]
  rfl

/-- When nothing else can do anything, the one call is replied to. -/
theorem Attempt.next?_of_pending {m m' : Method} {a : Authenticator}
    {phase : Authenticator.Phase} {r : Request} (h : Attempt m st past)
    (hprovider : st.services.kubernetes = some ⟨m', a⟩) (hcalls : a.calls = #[⟨.login, phase⟩])
    (hready : a.isReady 0 = false) (hpending : a.pending? 0 = some r) (network : Network)
    (env : Surroundings) :
    st.services.next? network env = some (.deliver .kubernetes 0 (network r)) := by
  have htask : st.services.readyTask? = none := by
    simp [Services.readyTask?, h.tasks]
  have hcall : st.services.exchangers.findSome? (st.services.readyCall? fun _ _ => true)
      = none := by
    refine List.findSome?_eq_none_iff.mpr fun p _ => ?_
    by_cases hp : p = .kubernetes
    · subst hp
      simp [Services.readyCall?, Services.provider?, hprovider, hcalls, hready]
    · cases hg : st.services.provider? p with
      | none => simp [Services.readyCall?, hg]
      | some g => simp [Services.readyCall?, hg, h.others p g hp hg, Authenticator.initial]
  have hscheduler : st.services.readyScheduler? env = none := by
    simp [Services.readyScheduler?, h.schedulers]
  have hfirst : (st.services.repliedCall? fun r => some (network r)) .kubernetes
      = some (.deliver .kubernetes 0 (network r)) := by
    simp [Services.repliedCall?, Services.provider?, hprovider, hcalls, hpending]
  have hreplied : (st.services.replied? fun r => some (network r))
      = some (.deliver .kubernetes 0 (network r)) := by
    simp [Services.replied?, Services.repliedTask?, h.tasks, Services.exchangers, hfirst]
  simp only [Services.next?, htask, hcall, hscheduler, hreplied]
  rfl

/-- A single call that can do nothing and waits for nothing is over. -/
theorem isOver_of_still_alone {a : Authenticator} {phase : Authenticator.Phase}
    (hline : Authenticator.Orderly a) (hcalls : a.calls = #[⟨.login, phase⟩])
    (hready : a.isReady 0 = false) (hpending : a.pending? 0 = none) : phase.isOver = true := by
  have hnone : ∀ i, a.calls[i + 1]? = none := by
    intro i
    rw [hcalls]
    rfl
  have hcall : a.calls[0]? = some ⟨.login, phase⟩ := by
    rw [hcalls]
    rfl
  refine hline.isOver_of_still (i := 0) (fun i => ?_) (fun i => ?_) hcall
  · cases i with
    | zero => exact hready
    | succ i => simp [Authenticator.isReady, hnone]
  · cases i with
    | zero => exact hpending
    | succ i => simp [Authenticator.pending?, hnone]

/-- While the first login is under way it takes a step of its own or is replied to, and either uses
up a step. -/
theorem Attempt.next? {m : Method} (h : Attempt m st past)
    (hanswer : st.services.answer? .kubernetes 0 = none) (network : Network) (env : Surroundings) :
    ∃ e, st.services.next? network env = some e ∧
      loginSteps { st with services := (st.services.step env e).1 } < loginSteps st := by
  obtain ⟨a, phase, hprovider, hphase, hcalls, hline, -⟩ := h.lone
  have hlone : a.Lone := ⟨phase, hphase, hcalls⟩
  by_cases hready : a.isReady 0 = true
  · have hmoved : a.isMovedBy (.advance 0) = true := hready
    exact ⟨_, next?_of_isReady h.tasks hprovider hcalls hready network env,
      Attempt.loginSteps_lt hprovider hmoved rfl hlone env⟩
  rw [Bool.not_eq_true] at hready
  cases hpending : a.pending? 0 with
  | some r =>
    have hmoved : a.isMovedBy (.reply 0 (network r)) = true := by
      simp [Authenticator.isMovedBy, hpending]
    exact ⟨_, h.next?_of_pending hprovider hcalls hready hpending network env,
      Attempt.loginSteps_lt hprovider hmoved rfl hlone env⟩
  | none =>
    -- a call that is over has an answer
    have hover := isOver_of_still_alone hline hcalls hready hpending
    have hcall : a.calls[0]? = some ⟨.login, phase⟩ := by
      rw [hcalls]
      rfl
    cases phase with
    | finished answer =>
      rw [Services.answer?, Services.provider?, hprovider, Option.bind_some,
        Authenticator.answer?_eq_some.mpr ⟨_, hcall⟩] at hanswer
      cases hanswer
    | cancelled => exact absurd rfl hphase
    | _ => cases hover

/-- **The first login comes to an end**: there is an answer to it before the steps are used up. -/
theorem Attempt.exhaust_turn {m : Method} (h : Attempt m st past) (network : Network)
    (env : Surroundings) {fuel : Nat} (hfuel : st.loginSteps + 2 ≤ fuel) (call : Nat) :
    (exhaust (turn network env) fuel st).1.stage ≠ .loggingIn call := by
  have failed : ∀ {st : Startup} {f : Failure} {fuel : Nat}, st.stage = .failed f →
      (exhaust (turn network env) fuel st).1.stage ≠ .loggingIn call := by
    intro st f fuel hstage
    have hturn : turn network env st = none := by
      simp only [turn, hstage]
    rw [exhaust_of_none hturn, hstage]
    exact nofun
  induction fuel generalizing st past with
  | zero => omega
  | succ fuel ih =>
    rcases h.stage with hstage | ⟨f, hstage, -⟩
    · cases hanswer : st.services.answer? .kubernetes 0 with
      | none =>
        obtain ⟨e, hnext, hless⟩ := h.next? hanswer network env
        have hturn : turn network env st = some (st.step env (.services e)) := by
          simp [turn, hstage, canProceed, hanswer, hnext]
        have hfuel' : (st.step env (.services e)).1.loginSteps + 2 ≤ fuel := by
          have hless' : (st.step env (.services e)).1.loginSteps < st.loginSteps := hless
          omega
        rw [exhaust, hturn]
        exact ih (h.own (Services.isOwn_next? hnext) env) hfuel'
      | some answer =>
        have hturn : turn network env st = some (st.proceed env, []) := by
          simp [turn, hstage, canProceed, hanswer, step]
        rw [exhaust, hturn]
        show (exhaust (turn network env) fuel (st.proceed env)).1.stage ≠ _
        obtain ⟨result, rfl⟩ := h.issued hanswer
        cases result with
        | error f => exact failed (h.proceed_of_error (login?_eq_some.mpr hanswer) env)
        | ok issued =>
          have hlaunched : Launched (st.proceed env) := by
            simp only [Startup.proceed, hstage, hanswer]
            exact launched_launch env _ h.tasks (.inr ⟨issued, hanswer⟩)
          obtain ⟨events, -, hrun⟩ := exhaust_turn_eq_run network env fuel (st.proceed env)
          rw [hrun]
          exact (launched_run hlaunched events).not_loggingIn call
    · exact failed hstage

/-! ### Failures -/

/-- A setup has begun: its first login is under way, or it needs none. -/
theorem begin_ok_cases {st : Startup} (h : begin setup reports env = .ok st) :
    (∃ k account threshold, setup.kubernetes = some k ∧
        Attempt (.kubernetes k.url k.role account threshold) st []) ∨
      setup.kubernetes = none ∧ Launched st := by
  obtain ⟨s, -, hs, -, ⟨hnone, rfl⟩ | ⟨k, account, threshold, hk, hprovider, rfl⟩⟩ := begin_eq_ok h
  · exact .inr ⟨hnone, launched_launch env none hs.tasks (.inl (hs.kubernetes_none hnone))⟩
  · have hwithin : (s.within env .kubernetes (.begin .login)).1
        = s.setProvider .kubernetes ⟨.kubernetes k.url k.role account threshold,
            (Authenticator.login (.kubernetes k.url k.role account threshold) env []).1⟩ := by
      rw [Services.within, Services.provider?, hprovider]
      rfl
    refine .inl ⟨k, account, threshold, hk, ?_⟩
    rw [hwithin]
    refine ⟨hs.schedulers, hs.tasks, ⟨env, [], List.forall_mem_nil _, rfl, rfl⟩, ?_, .inl rfl⟩
    intro p g hp hg
    exact hs.others p g hp ((Services.provider?_setProvider_of_ne s _ hp).symm.trans hg)

/-- A startup that has failed with its first login, after these notices. -/
structure FailedLogin (setup : Setup) (t : Startup) (past : List Services.Notice) (f : Failure) :
    Prop where
  /-- The login has failed, and the failure holds its text. -/
  login : ∃ g, t.login? = some (.error g) ∧
    f = .authentication ("Initial Kubernetes login failed: " ++ g.message)
  /-- One request has been sent at most. -/
  once : (Services.requests past).length ≤ 1
  /-- What has been sent is a login. -/
  sent : ∀ r ∈ Services.requests past, ∃ k jwt, setup.kubernetes = some k ∧
    Login.kubernetesRequest (.server k.url) k.role jwt = .ok r
  /-- No scheduler has been started. -/
  schedulers : t.services.schedulers = []
  /-- Whatever could happen by itself, nothing does. -/
  forever : ∀ later : List (Surroundings × Event), (∀ x ∈ later, x.2.isOwn = true) →
    t.run later = (t, [])

theorem Attempt.failedLogin {k : KubernetesSettings} {account : ServiceAccount} {threshold : Span}
    {f : Failure} (h : Attempt (.kubernetes k.url k.role account threshold) st past)
    (hk : setup.kubernetes = some k) (hstage : st.stage = .failed f) :
    FailedLogin setup st past f := by
  obtain ⟨honce, hsent⟩ := h.requests
  refine ⟨?_, honce, ?_, h.schedulers, fun later hlater => h.run_of_failed hstage hlater⟩
  · rcases h.stage with hlogging | ⟨g, hfailed, hlogin⟩
    · cases hstage.symm.trans hlogging
    · exact ⟨g, hlogin, Stage.failed.inj (hstage.symm.trans hfailed)⟩
  · intro r hr
    obtain ⟨files, hprepare⟩ := hsent r hr
    obtain ⟨jwt, -, hrequest⟩ := Method.prepare_kubernetes_eq_ok.mp hprepare
    exact ⟨k, jwt, hk, hrequest⟩

/-- **Startups fail cleanly.** A startup fails at once exactly if there is no service account token
or, with one, no strategy under the configured name; then nothing is sent. Otherwise it fails
exactly if the first login does: then it has sent one login at most, there is no scheduler, and
nothing happens by itself ever after. A startup that goes on does not fail any more, whatever
happens, and one that can do nothing by itself is up or has failed. Over any network a startup is
such a run, to the end of the first login. -/
theorem fails_cleanly (setup : Setup) (reports : Bool) (env : Surroundings) :
    (∀ f, begin setup reports env = .error f ↔
      (∃ k, setup.kubernetes = some k ∧ Accountless env.files k ∧ f = accountless k) ∨
        (∀ k, setup.kubernetes = some k → ¬Accountless env.files k) ∧
          ¬setup.Offers setup.vault.method ∧ f = Registry.unknown setup.vault.method) ∧
    (∀ network f, begin setup reports env = .error f →
      Session.start network setup reports env = (.error f, [])) ∧
    ∀ st, begin setup reports env = .ok st →
      (∀ events : List (Surroundings × Event), (∀ x ∈ events, x.2.isOwn = true) →
        (∀ f, (st.run events).1.stage = .failed f →
          FailedLogin setup (st.run events).1 (st.run events).2 f) ∧
        (∀ g, (st.run events).1.login? = some (.error g) → ∀ next,
          ((st.run events).1.proceed next).stage = .failed (loginFailed g)) ∧
        ((st.run events).1.stage = .started ∨ (∃ i, (st.run events).1.stage = .checking i) →
          ∀ (later : List (Surroundings × Event)) f,
            ((st.run events).1.run later).1.stage ≠ .failed f) ∧
        ((st.run events).1.Still →
          (st.run events).1.stage = .started ∨ ∃ f, (st.run events).1.stage = .failed f)) ∧
      ∀ network, ∃ events : List (Surroundings × Event), (∀ x ∈ events, x.2.isOwn = true) ∧
        (∀ call, (st.run events).1.stage ≠ .loggingIn call) ∧
        Session.start network setup reports env
          = (match (st.run events).1.stage with
              | .failed f => .error f
              | _ => .ok ⟨(st.run events).1.services, env⟩,
            (st.run events).2) := by
  refine ⟨begin_error_cases setup reports env, ?_, ?_⟩
  · intro network f hbegin
    rw [Session.start, hbegin]
  intro st hbegin
  constructor
  · intro events hown
    have hreached : (∃ k account threshold, setup.kubernetes = some k ∧
          Attempt (.kubernetes k.url k.role account threshold) (st.run events).1
            (st.run events).2) ∨ Launched (st.run events).1 := by
      rcases begin_ok_cases hbegin with ⟨k, account, threshold, hk, h⟩ | ⟨-, h⟩
      · exact (h.run hown).imp (fun h => ⟨k, account, threshold, hk, h⟩) id
      · exact .inr (launched_run h events)
    rcases hreached with ⟨k, account, threshold, hk, h⟩ | h
    · refine ⟨fun f hf => h.failedLogin hk hf, fun g hg next => h.proceed_of_error hg next, ?_,
        fun hstill => .inr (h.over_of_still hstill)⟩
      intro hstage
      rcases h.stage with hlogging | ⟨g, hfailed, -⟩
      · rw [hlogging] at hstage
        rcases hstage with hstage | ⟨i, hstage⟩ <;> cases hstage
      · rw [hfailed] at hstage
        rcases hstage with hstage | ⟨i, hstage⟩ <;> cases hstage
    · refine ⟨fun f hf => absurd hf (h.not_failed f), fun g hg => absurd hg (h.login_ne_error g),
        fun _ later f => (launched_run h later).not_failed f,
        fun hstill => .inl (h.over_of_still hstill)⟩
  · intro network
    obtain ⟨events, hown, hrest⟩ := exhaust_turn_eq_run network env st.stepsLeft st
    refine ⟨events, hown, ?_, ?_⟩
    · intro call
      rcases begin_ok_cases hbegin with ⟨k, account, threshold, -, h⟩ | ⟨-, h⟩
      · rw [← hrest]
        refine h.exhaust_turn network env ?_ call
        simp only [stepsLeft, Services.stepsLeft, loginSteps, Errand.Stage.stepsLeft]
        omega
      · exact (launched_run h events).not_loggingIn call
    · rw [Session.start, hbegin]
      simp only [rest, hrest]
      cases (st.run events).1.stage <;> rfl

end Startup

end VaultTokens
