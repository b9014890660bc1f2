import VaultTokens.Proofs.ErrandProgress
import VaultTokens.Proofs.StartupSuccess

/-!
# Services that have started

What the services of a setup can come to once they are up is `Startup.Reaches`: callers may set up
strategies of their own, and then whatever can happen happens. The notices there have been since the
startup began account for all of it: every provider has come to where it stands from its first call
on, and what it let known on the way is what has been let known of it (`Recounts`). The services are
launched when no call is under way and nobody waits for one, so that from then on every call is
attended to and every errand is in a stage of its own kind.

## Main results

* `recounts_run`, `Recounts.exists_history` — what notices tell of providers
* `attended_of_idle` — where nobody has to wait, every call is attended to
* `Startup.Reaches.recounts`, `Startup.Reaches.attended`, `Startup.Reaches.suited`,
  `Startup.Reaches.lineup` — what holds of services that have started
-/

namespace VaultTokens

namespace Services

variable {s t : Services} {past new : List Notice} {p : Exchanger} {g : Guarded}

/-! ### What notices tell of providers -/

/-- The providers have come to where they stand from services that nobody had called, and the
notices tell of each of them what it has let known on the way. -/
def Recounts (s : Services) (past : List Notice) : Prop :=
  ∃ fresh : Services, (∀ p g, fresh.provider? p = some g → g.strategy = .initial) ∧
    ∀ p, ∃ own, Traces p own fresh s past

theorem recounts_of_initial (h : ∀ p g, s.provider? p = some g → g.strategy = .initial) :
    Recounts s [] :=
  ⟨s, h, fun _ => ⟨[], .still rfl rfl⟩⟩

theorem Recounts.extend (h : Recounts s past) (ht : ∀ p, ∃ own, Traces p own s t new) :
    Recounts t (past ++ new) := by
  obtain ⟨fresh, hfresh, htraces⟩ := h
  refine ⟨fresh, hfresh, fun p => ?_⟩
  obtain ⟨before, hbefore⟩ := htraces p
  obtain ⟨after, hafter⟩ := ht p
  exact ⟨before ++ after, hbefore.trans hafter⟩

theorem recounts_run (h : Recounts s past) (events : List (Surroundings × Event)) :
    Recounts (s.run events).1 (past ++ (s.run events).2) :=
  h.extend (traces_run s events)

/-- All that has happened to a provider from its first call on: it has led the provider to where it
stands, and notices tell of the provider what it has let known on the way. -/
structure History (s : Services) (past : List Notice) (p : Exchanger) (m : Method)
    (own : List (Surroundings × Authenticator.Event)) : Prop where
  /-- Where the provider stands. -/
  provider : s.provider? p = some ⟨m, (Authenticator.initial.run m own).1⟩
  /-- What it has let known. -/
  notices : innards p past = (Authenticator.initial.run m own).2

theorem History.extend {m : Method} {own more : List (Surroundings × Authenticator.Event)}
    (h : History s past p m own) (htraces : Traces p more s t new) :
    History t (past ++ new) p m (own ++ more) := by
  constructor
  · rw [htraces.provider, h.provider, Authenticator.run_append]
    rfl
  · rw [innards_append, htraces.notices, h.provider, h.notices, Authenticator.run_append]
    rfl

/-- **How a provider has come to where it stands.** -/
theorem Recounts.exists_history (h : Recounts s past) (hg : s.provider? p = some g) :
    ∃ own, History s past p g.method own := by
  obtain ⟨fresh, hfresh, htraces⟩ := h
  obtain ⟨own, htrace⟩ := htraces p
  obtain ⟨old, hold, rfl⟩ := Option.map_eq_some_iff.mp (htrace.provider.symm.trans hg)
  have hinitial : old = ⟨old.method, .initial⟩ := congrArg (Guarded.mk _) (hfresh p old hold)
  refine ⟨own, ?_, ?_⟩
  · rw [hg, hinitial]
    rfl
  · rw [htrace.notices, hold, hinitial]
    rfl

/-- The calls to every provider are in order. -/
theorem Recounts.ordered (h : Recounts s past) : Ordered s := by
  intro p g hg
  obtain ⟨own, hown⟩ := h.exists_history hg
  have hstrategy : g.strategy = (Authenticator.initial.run g.method own).1 :=
    congrArg Guarded.strategy (Option.some.inj (hg.symm.trans hown.provider))
  rw [hstrategy]
  exact ⟨Authenticator.orderly_run Authenticator.orderly_initial g.method own,
    Authenticator.suited_run g.method own⟩

/-! ### Nobody has to wait -/

/-- **Where no call is under way and nobody waits for one, every call is attended to.** -/
theorem attended_of_idle
    (hcalls : ∀ p g (call : Nat) c, s.provider? p = some g → g.strategy.calls[call]? = some c →
      c.phase.isOver = true ∧ c.demand = .login)
    (hschedulers : ∀ entry ∈ s.schedulers, entry.2.Sole ∧ ∀ call, ¬entry.2.Holds call)
    (htasks : ∀ (i : Nat) task, s.tasks[i]? = some task → task.stage = .begun) : Attended s where
  owned := by
    refine ⟨fun k p a hk call hholds => ?_, fun p g hg i phase hi => ?_⟩
    · exact absurd hholds ((hschedulers _ (List.mem_of_getElem? hk)).2 call)
    · cases (hcalls p g i _ hg hi).2
  single _ _ _ hk := (hschedulers _ (List.mem_of_getElem? hk)).1
  attends p g call c hg hc hlive := by
    rw [(hcalls p g call c hg hc).1] at hlive
    cases hlive
  apart _ _ _ hrenews := by
    obtain ⟨k, a, hk, hholds⟩ := hrenews
    exact (hschedulers _ (List.mem_of_getElem? hk)).2 _ hholds
  asked i _ _ _ hi := by cases htasks i _ hi

theorem suited_of_idle (htasks : ∀ (i : Nat) task, s.tasks[i]? = some task → task.stage = .begun) :
    Suited s := by
  rintro i ⟨errand, stage⟩ hi
  obtain rfl : stage = .begun := htasks i _ hi
  trivial

/-! ### Strategies that callers set up besides -/

/-- Services with strategies that callers have set up besides, and that nobody has called yet. -/
def joinedBy (s : Services) (guests : List Method) : Services :=
  { s with guests := guests.map (⟨·, .initial⟩) }

/-- The providers of before are where they were. -/
theorem provider?_joinedBy_of_some (hnone : ∀ n, s.provider? (.guest n) = none)
    (hg : s.provider? p = some g) (guests : List Method) :
    (s.joinedBy guests).provider? p = some g := by
  rcases p with (_ | _) | n
  · exact hg
  · exact hg
  · cases (hnone n).symm.trans hg

/-- A provider is one of before, or nobody has called it. -/
theorem provider?_joinedBy_cases {guests : List Method}
    (hg : (s.joinedBy guests).provider? p = some g) :
    s.provider? p = some g ∨ g.strategy = .initial := by
  rcases p with (_ | _) | n
  · exact .inl hg
  · exact .inl hg
  · right
    have hguest : (guests.map fun m => (⟨m, .initial⟩ : Guarded))[n]? = some g := hg
    rw [List.getElem?_map] at hguest
    obtain ⟨m, -, rfl⟩ := Option.map_eq_some_iff.mp hguest
    rfl

theorem Recounts.joinedBy (h : Recounts s past) (hnone : ∀ n, s.provider? (.guest n) = none)
    (guests : List Method) : Recounts (s.joinedBy guests) past := by
  obtain ⟨fresh, hfresh, htraces⟩ := h
  refine ⟨fresh.joinedBy guests, fun p g hg => ?_, fun p => ?_⟩
  · rcases provider?_joinedBy_cases hg with hold | hnew
    · exact hfresh p g hold
    · exact hnew
  · obtain ⟨own, htrace⟩ := htraces p
    rcases p with (_ | _) | n
    · exact ⟨own, htrace.provider, htrace.notices⟩
    · exact ⟨own, htrace.provider, htrace.notices⟩
    · refine ⟨[], .still rfl ?_⟩
      have hfreshNone : fresh.provider? (.guest n) = none := by
        have hmap := htrace.provider.symm.trans (hnone n)
        rwa [Option.map_eq_none_iff] at hmap
      rw [htrace.notices, hfreshNone]
      rfl

theorem Attended.joinedBy (h : Attended s) (hnone : ∀ n, s.provider? (.guest n) = none)
    (guests : List Method) : Attended (s.joinedBy guests) where
  owned := by
    refine ⟨fun k p a hk call hholds => ?_, fun p g hg => ?_⟩
    · obtain ⟨g, phase, hg, hc⟩ := h.owned.logins k p a hk call hholds
      exact ⟨g, phase, provider?_joinedBy_of_some hnone hg guests, hc⟩
    · rcases provider?_joinedBy_cases hg with hold | hnew
      · exact h.owned.kept p g hold
      · rw [hnew]
        exact Authenticator.kept_initial
  single := h.single
  attends p g call c hg hc hlive := by
    rcases provider?_joinedBy_cases hg with hold | hnew
    · exact h.attends p g call c hold hc hlive
    · rw [hnew] at hc
      cases hc
  apart := h.apart
  asked i errand p call hi := by
    obtain ⟨g, name, demand, phase, hg, hrest⟩ := h.asked i errand p call hi
    exact ⟨g, name, demand, phase, provider?_joinedBy_of_some hnone hg guests, hrest⟩

/-- Where there is no provider, there is none after a run. -/
theorem provider?_run_of_none (h : s.provider? p = none) (events : List (Surroundings × Event)) :
    (s.run events).1.provider? p = none := by
  obtain ⟨own, htrace⟩ := traces_run s events p
  rw [htrace.provider, h]
  rfl

end Services

namespace Startup

variable {setup : Setup} {reports : Bool} {env : Surroundings} {st : Startup}
  {past : List Services.Notice} {issued : Option Issued} {s : Services}

/-! ### Histories of a startup -/

/-- The startup itself leaves the providers alone. -/
theorem provider?_proceed (env : Surroundings) (st : Startup) (p : Exchanger) :
    (st.proceed env).services.provider? p = st.services.provider? p := by
  rw [Startup.proceed]
  split
  · split
    · exact provider?_launch ..
    · rfl
    · rfl
  · split <;> rfl
  · rfl
  · rfl

theorem recounts_begin (hbegin : begin setup reports env = .ok st) : st.services.Recounts [] := by
  obtain ⟨s, -, hwired, -, hst⟩ := begin_eq_ok hbegin
  have hinitial : ∀ p g, s.provider? p = some g → g.strategy = .initial :=
    fun p g => hwired.strategy_eq
  obtain ⟨-, rfl⟩ | ⟨k, account, threshold, -, hprovider, rfl⟩ := hst
  · refine Services.recounts_of_initial fun p g hg => hinitial p g ?_
    rwa [provider?_launch] at hg
  · have hsilent : (s.within env .kubernetes (.begin .login)).2 = [] := by
      have hkubernetes : s.provider? .kubernetes = _ := hprovider
      rw [Services.within, hkubernetes]
      rfl
    have hextend := (Services.recounts_of_initial hinitial).extend
      fun p => ⟨_, Services.traces_within env s .kubernetes p (.begin .login)⟩
    rwa [hsilent] at hextend

theorem recounts_run (h : st.services.Recounts past) (events : List (Surroundings × Event)) :
    (st.run events).1.services.Recounts (past ++ (st.run events).2) := by
  induction events generalizing st past with
  | nil =>
    rw [Startup.run, List.append_nil]
    exact h
  | cons x rest ih =>
    obtain ⟨env, e⟩ := x
    cases e with
    | services e =>
      have hstep := h.extend (Services.change_step env st.services e).traces
      have hrest := @ih { st with services := (st.services.step env e).1 } _ hstep
      rwa [List.append_assoc] at hrest
    | proceed =>
      have hstill : ∀ p, ∃ own,
          Services.Traces p own st.services (st.proceed env).services [] :=
        fun p => ⟨[], .still (provider?_proceed env st p) rfl⟩
      have hstep := h.extend hstill
      rw [List.append_nil] at hstep
      exact ih hstep

/-! ### When the services are launched -/

theorem idle_of_scheduler? {p q : Exchanger} {policy : RenewalPolicy}
    {f : Renewal.Scheduler Nat → Renewal.Scheduler Nat} {a : Renewal.Scheduler Nat}
    (hsole : ∀ a, a.Sole → (f a).Sole) (hholds : ∀ a call, (f a).Holds call → a.Holds call)
    (h : scheduler? p policy reports f = some (q, a)) : a.Sole ∧ ∀ call, ¬a.Holds call := by
  rw [scheduler?] at h
  split at h
  · obtain ⟨-, rfl⟩ := Prod.mk.inj (Option.some.inj h)
    refine ⟨hsole _ (Renewal.Scheduler.sole_idle policy reports), fun call hcall => ?_⟩
    obtain ⟨k, w, hw, -⟩ := hholds _ call hcall
    cases hw
  · cases h

/-- No scheduler of a launch waits for a login. -/
theorem idle_of_mem_schedulers {moment : Nat} {entry : Exchanger × Renewal.Scheduler Nat}
    (h : entry ∈ schedulers setup reports moment issued) :
    entry.2.Sole ∧ ∀ call, ¬entry.2.Holds call := by
  obtain ⟨p, a⟩ := entry
  rcases List.mem_append.mp h with h | h
  · have hkubernetes := Option.mem_toList.mp h
    split at hkubernetes
    · exact idle_of_scheduler? (fun a ha => Renewal.Scheduler.sole_startFrom ha _ _)
        (fun a call => Renewal.Scheduler.holds_of_startFrom.1) hkubernetes
    · cases hkubernetes
  · obtain ⟨t, -, hrenewal⟩ := Option.bind_eq_some_iff.mp (Option.mem_toList.mp h)
    exact idle_of_scheduler? (fun a ha => Renewal.Scheduler.sole_spawn ha _)
      (fun a call => Renewal.Scheduler.holds_of_start.1) hrenewal

theorem Ready.stage_of_launch (h : Ready setup reports st issued) (env : Surroundings) (i : Nat)
    {task : Task} (hi : (st.launch env issued).services.tasks[i]? = some task) :
    task.stage = .begun := by
  rw [launch] at hi
  split at hi
  · have hpush : (st.services.tasks.push ⟨.health, .begun⟩)[i]? = some task := hi
    rw [h.tasks, Array.getElem?_push] at hpush
    split at hpush
    · rw [← Option.some.inj hpush]
    · cases hpush
  · have hsame : st.services.tasks[i]? = some task := hi
    rw [h.tasks] at hsame
    cases hsame

/-- **When the services are launched, every call is attended to.** -/
theorem Ready.attended (h : Ready setup reports st issued) (env : Surroundings) :
    (st.launch env issued).services.Attended := by
  refine Services.attended_of_idle (fun p g call c hg hc => ?_) (fun entry hentry => ?_)
    fun i task => h.stage_of_launch env i
  · rw [provider?_launch] at hg
    rcases p with (_ | _) | n
    · obtain ⟨k, account, threshold, a, answer, -, rfl, hcalls⟩ := h.provider?_kubernetes hg
      obtain ⟨-, rfl⟩ := Authenticator.eq_of_single hcalls hc
      exact ⟨rfl, rfl⟩
    · obtain ⟨t, -, rfl⟩ := h.provider?_renewal hg
      cases hc
    · rw [Services.provider?, h.guests] at hg
      cases hg
  · rw [schedulers_launch] at hentry
    exact idle_of_mem_schedulers hentry

/-! ### Services that have started -/

/-- **What the services of a setup can come to once they are up**, with all the notices there have
been since the startup began. Callers may have set up strategies of their own. -/
inductive Reaches (setup : Setup) (reports : Bool) : Services → List Services.Notice → Prop where
  /-- The startup has succeeded, and then whatever can happen has happened. -/
  | up {env : Surroundings} {st : Startup} {before : List (Surroundings × Event)}
    (hbegin : begin setup reports env = .ok st) (hown : ∀ x ∈ before, x.2.isOwn = true)
    (hstarted : (st.run before).1.stage = .started) (guests : List Method)
    (after : List (Surroundings × Services.Event)) :
    Reaches setup reports (((st.run before).1.services.joinedBy guests).run after).1
      ((st.run before).2 ++ (((st.run before).1.services.joinedBy guests).run after).2)

/-- Callers are the only ones to set up strategies besides. -/
theorem guest_of_started (hbegin : begin setup reports env = .ok st)
    {events : List (Surroundings × Event)} (hown : ∀ x ∈ events, x.2.isOwn = true)
    (hstarted : (st.run events).1.stage = .started) (n : Nat) :
    (st.run events).1.services.provider? (.guest n) = none := by
  obtain ⟨ready, issued, env', -, -, later, hready, -, -, hservices, -⟩ :=
    exists_ready hbegin hown hstarted
  rw [hservices]
  refine Services.provider?_run_of_none ?_ later
  rw [provider?_launch, Services.provider?, hready.guests]
  rfl

/-- **What has been let known tells how the strategies have come to where they stand.** -/
theorem Reaches.recounts (h : Reaches setup reports s past) : s.Recounts past := by
  cases h with
  | @up env st before hbegin hown hstarted guests after =>
    have hstartup := recounts_run (recounts_begin hbegin) before
    exact Services.recounts_run
      (hstartup.joinedBy (guest_of_started hbegin hown hstarted) guests) after

/-- **Every call is attended to.** -/
theorem Reaches.attended (h : Reaches setup reports s past) : s.Attended := by
  cases h with
  | up hbegin hown hstarted guests after =>
    have hnone := guest_of_started hbegin hown hstarted
    obtain ⟨ready, issued, env', -, -, later, hready, -, -, hservices, -⟩ :=
      exists_ready hbegin hown hstarted
    have hattended := Services.attended_run (hready.attended env') later
    rw [← hservices] at hattended
    exact Services.attended_run (hattended.joinedBy hnone guests) after

/-- **Every errand is in a stage of its own kind.** -/
theorem Reaches.suited (h : Reaches setup reports s past) : s.Suited := by
  cases h with
  | up hbegin hown hstarted guests after =>
    obtain ⟨ready, issued, env', -, -, later, hready, -, -, hservices, -⟩ :=
      exists_ready hbegin hown hstarted
    have hsuited := Services.suited_run
      (Services.suited_of_idle fun i task => hready.stage_of_launch env' i) later
    rw [← hservices] at hsuited
    exact Services.suited_run (s := Services.joinedBy _ guests) hsuited after

/-- **The schedulers are those of the setup.** -/
theorem Reaches.lineup (h : Reaches setup reports s past) : s.lineup = setup.lineup reports := by
  cases h with
  | up hbegin hown hstarted guests after =>
    obtain ⟨moment, lease, -, up, later, -, hunderway, hservices, -⟩ :=
      exists_launches hbegin hown hstarted
    rw [Services.lineup_run]
    show Services.lineup (Startup.run _ _).1.services = _
    rw [hservices]
    exact hunderway.lineup later

end Startup

end VaultTokens
