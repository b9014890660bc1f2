import VaultTokens.Proofs.FirstLogins
import VaultTokens.Proofs.HealthChecks

/-!
# Startups and the check of health

Two servers that reply alike to every other request bring about the same startup, step by step: as
long as the health of the server is not known, the two runs are the same, and from then on they
differ in the outcome of that one errand alone. What happens next is decided without it, in the
startup and in whatever comes of it.

The same can be said without a network. Two runs that differ in the replies to errands alone, in
what they are, in when they come and in whether they come, stay abreast of each other.

## Main results

* `Startup.abreast_run` — replies to errands make no difference to a startup
* `Session.start_congr` — startups over networks that differ in the reply to the health check alone
-/

namespace VaultTokens

/-! ### Startups over two networks -/

namespace Startup

variable {st st' : Startup} {env : Surroundings} {first second : Network}

/-- A startup during which nobody asks anything but whether the server is healthy, and that not
before the first login is done. -/
structure Minding (st : Startup) : Prop where
  /-- Nobody has asked anything else. -/
  checking : Services.Checking st.services
  /-- The settings are those of the setup. -/
  settings : st.services.settings = st.setup.vault
  /-- Nothing is asked during the first login. -/
  unasked : ∀ call, st.stage = .loggingIn call → st.services.tasks = #[]
  /-- There is one check. -/
  once : ∀ i, st.stage = .checking i → i = 0

/-- Two startups that have gone the same way, but for the outcome of the check of the server's
health. -/
structure Alike (st st' : Startup) : Prop where
  /-- The setups agree. -/
  setup : st.setup = st'.setup
  /-- Failures are reported in both or in neither. -/
  reports : st.reports = st'.reports
  /-- They have come equally far. -/
  stage : st.stage = st'.stage
  /-- The services have gone the same way. -/
  services : Services.Alike st.services st'.services

/-- The check of the server's health begins as the only errand. -/
theorem minding_launch (htasks : st.services.tasks = #[])
    (hposting : ∀ p g, st.services.provider? p = some g → g.strategy.Posting)
    (hsettings : st.services.settings = st.setup.vault) (issued : Option Issued)
    (env : Surroundings) : Minding (st.launch env issued) := by
  have hsame := provider?_launch env st issued
  refine ⟨⟨?_, fun p g hg => hposting p g ((hsame p).symm.trans hg)⟩, ?_, ?_, ?_⟩
  · rw [launch]
    split
    · refine .inr ⟨.begun, [], ?_, .begun⟩
      simp [Services.step, htasks]
    · exact .inl htasks
  · rw [settings_launch, setup_launch, hsettings]
  · intro call hstage
    rw [launch] at hstage
    split at hstage <;> cases hstage
  · intro i hstage
    rw [launch] at hstage
    split at hstage
    · rw [← Stage.checking.inj hstage]
      exact congrArg Array.size htasks
    · cases hstage

theorem Minding.services (h : Minding st) {e : Services.Event} (he : e.isOwn = true)
    (env : Surroundings) : Minding { st with services := (st.services.step env e).1 } := by
  have hchange := Services.change_step env st.services e
  refine ⟨h.checking.step he env, hchange.settings_eq.trans h.settings, fun call hstage => ?_,
    h.once⟩
  have hsize := hchange.size_tasks he
  rw [h.unasked call hstage] at hsize
  exact Array.size_eq_zero_iff.mp hsize

theorem Minding.proceed (h : Minding st) (env : Surroundings) : Minding (st.proceed env) := by
  rw [Startup.proceed]
  split
  · rename_i call hstage
    split
    · exact minding_launch (h.unasked call hstage) h.checking.posting h.settings _ env
    · exact ⟨h.checking, h.settings, fun call hnext => (by cases hnext),
        fun i hnext => (by cases hnext)⟩
    · exact h
  · split
    · exact ⟨h.checking, h.settings, fun call hnext => (by cases hnext),
        fun i hnext => (by cases hnext)⟩
    · exact h
  · exact h
  · exact h

/-- A startup that has begun minds what is asked of it. -/
theorem minding_begin {setup : Setup} {reports : Bool} (h : begin setup reports env = .ok st) :
    Minding st := by
  obtain ⟨s, hparts, hwired, -, hcase⟩ := begin_eq_ok h
  have hsettings := (parts_of_wired hparts).1
  have hposting : ∀ p g, s.provider? p = some g → g.strategy.Posting := by
    intro p g hg
    rw [hwired.strategy_eq hg]
    exact Authenticator.posting_initial
  rcases hcase with ⟨-, rfl⟩ | ⟨k, account, threshold, -, hprovider, rfl⟩
  · exact minding_launch hwired.tasks hposting hsettings none env
  · refine ⟨⟨.inl ?_, ?_⟩, ?_, fun _ _ => ?_,
      fun i hnext => (by cases hnext)⟩
    · exact (Services.scheduled_within ..).tasks.trans hwired.tasks
    · intro p g hg
      rw [(Services.traces_within env s .kubernetes p (.begin .login)).provider] at hg
      obtain ⟨g', hg', rfl⟩ := Option.map_eq_some_iff.mp hg
      exact (hposting p g' hg').run g'.method _
    · exact (Services.scheduled_within ..).settings.trans hsettings
    · exact (Services.scheduled_within ..).tasks.trans hwired.tasks

/-- Startups in which no check has begun are the same. -/
theorem Alike.eq_of_unasked (h : Alike st st') (htasks : st.services.tasks = #[]) : st = st' := by
  have hservices : st.services = st'.services := by
    cases h.services with
    | same h => exact h
    | checked hs =>
      obtain ⟨outcome, hone⟩ := hs
      cases htasks.symm.trans hone
  obtain ⟨setup, reports, services, stage⟩ := st
  obtain ⟨setup', reports', services', stage'⟩ := st'
  obtain rfl : setup = setup' := h.setup
  obtain rfl : reports = reports' := h.reports
  obtain rfl : services = services' := hservices
  obtain rfl : stage = stage' := h.stage
  rfl

/-- Whether the check is over does not depend on its outcome. -/
theorem Alike.isSome_outcome? (h : Alike st st') :
    (st.services.outcome? 0).isSome = (st'.services.outcome? 0).isSome := by
  cases h.services with
  | same h => rw [h]
  | checked hs ht =>
    obtain ⟨outcome, hone⟩ := hs
    obtain ⟨outcome', hone'⟩ := ht
    simp [Services.outcome?, hone, hone']

theorem Alike.canProceed_eq (h : Alike st st') (hm : Minding st) :
    st.canProceed = st'.canProceed := by
  rw [canProceed, canProceed, ← h.stage]
  split
  · rename_i call hstage
    rw [h.eq_of_unasked (hm.unasked call hstage)]
  · rename_i i hstage
    obtain rfl := hm.once i hstage
    exact h.isSome_outcome?
  · rfl
  · rfl

theorem Alike.proceed (h : Alike st st') (hm : Minding st) (env : Surroundings) :
    Alike (st.proceed env) (st'.proceed env) := by
  cases hstage : st.stage with
  | loggingIn call =>
    obtain rfl := h.eq_of_unasked (hm.unasked call hstage)
    exact ⟨rfl, rfl, rfl, .same rfl⟩
  | checking i =>
    obtain rfl := hm.once i hstage
    have hsome := h.isSome_outcome?
    rw [Startup.proceed, Startup.proceed, ← h.stage, hstage]
    simp only
    split <;> split
    · exact ⟨h.setup, h.reports, rfl, h.services⟩
    · simp_all
    · simp_all
    · exact h
  | started | failed f =>
    rw [Startup.proceed, Startup.proceed, ← h.stage, hstage]
    exact h

/-- A startup that has not failed takes its own step first. -/
theorem turn_of_canProceed (h : st.canProceed = true) (network : Network) (env : Surroundings) :
    st.turn network env = some (st.proceed env, []) := by
  rw [Startup.turn]
  split
  · rename_i f hstage
    rw [canProceed, hstage] at h
    cases h
  · rw [if_pos h]
    rfl

theorem turn_of_not_canProceed (h : st.canProceed = false) (hstage : ∀ f, st.stage ≠ .failed f)
    (network : Network) (env : Surroundings) :
    st.turn network env
      = (st.services.next? network env).map fun e => st.step env (.services e) := by
  rw [Startup.turn]
  split
  · rename_i f hfailed
    exact absurd hfailed (hstage f)
  · rw [h]
    rfl

/-- **One turn of a startup over two networks.** -/
theorem Alike.turn (h : Alike st st') (hm : Minding st)
    (hn : Services.RepliesAlike st.setup.vault first second) (env : Surroundings) :
    Startup.turn first env st = none ∧ Startup.turn second env st' = none ∨
      ∃ x y, Startup.turn first env st = some x ∧ Startup.turn second env st' = some y ∧
        Alike x.1 y.1 ∧ Minding x.1 ∧ x.1.setup = st.setup ∧
          Services.apart x.2 = Services.apart y.2 := by
  by_cases hfailed : ∃ f, st.stage = .failed f
  · obtain ⟨f, hf⟩ := hfailed
    exact .inl ⟨by rw [Startup.turn, hf], by rw [Startup.turn, ← h.stage, hf]⟩
  have hstage : ∀ f, st.stage ≠ .failed f := fun f hf => hfailed ⟨f, hf⟩
  cases hproceed : st.canProceed with
  | true =>
    have hproceed' := (h.canProceed_eq hm).symm.trans hproceed
    refine .inr ⟨_, _, turn_of_canProceed hproceed first env,
      turn_of_canProceed hproceed' second env, h.proceed hm env, hm.proceed env, ?_, rfl⟩
    rw [Startup.proceed]
    split <;> try rfl
    · split <;> first | rfl | exact setup_launch ..
    · split <;> rfl
  | false =>
    have hproceed' := (h.canProceed_eq hm).symm.trans hproceed
    rw [turn_of_not_canProceed hproceed hstage,
      turn_of_not_canProceed hproceed' fun f => by rw [← h.stage]; exact hstage f]
    rcases h.services.turn hm.checking (by rw [hm.settings]; exact hn) env with
      ⟨hfirst, hsecond⟩ | ⟨e, e', he, he', hnext, hnext', halike, hsame⟩
    · rw [Services.turn, Option.map_eq_none_iff] at hfirst hsecond
      exact .inl ⟨by rw [hfirst]; rfl, by rw [hsecond]; rfl⟩
    · refine .inr ⟨_, _, by rw [hnext]; rfl, by rw [hnext']; rfl,
        ⟨h.setup, h.reports, h.stage, halike⟩, hm.services he env, rfl, hsame⟩

/-- What happens by itself during a startup over two networks. -/
theorem Alike.exhaust (h : Alike st st') (hm : Minding st)
    (hn : Services.RepliesAlike st.setup.vault first second) (env : Surroundings) (fuel : Nat) :
    Alike (VaultTokens.exhaust (Startup.turn first env) fuel st).1
        (VaultTokens.exhaust (Startup.turn second env) fuel st').1 ∧
      Minding (VaultTokens.exhaust (Startup.turn first env) fuel st).1 ∧
      (VaultTokens.exhaust (Startup.turn first env) fuel st).1.setup = st.setup ∧
      Services.apart (VaultTokens.exhaust (Startup.turn first env) fuel st).2
        = Services.apart (VaultTokens.exhaust (Startup.turn second env) fuel st').2 := by
  induction fuel generalizing st st' with
  | zero => exact ⟨h, hm, rfl, rfl⟩
  | succ fuel ih =>
    rcases h.turn hm hn env with ⟨hfirst, hsecond⟩ |
      ⟨⟨next, new⟩, ⟨next', new'⟩, hfirst, hsecond, halike, hminding, hsetup, hsame⟩
    · rw [exhaust_of_none hfirst, exhaust_of_none hsecond]
      exact ⟨h, hm, rfl, rfl⟩
    · have hsetup : next.setup = st.setup := hsetup
      obtain ⟨hrest, hminding', hsetup', hmore⟩ := ih halike hminding (by rw [hsetup]; exact hn)
      simp only [VaultTokens.exhaust, hfirst, hsecond, Services.apart_append]
      exact ⟨hrest, hminding', hsetup'.trans hsetup, by rw [hsame, hmore]⟩

theorem Alike.stepsLeft_eq (h : Alike st st') : st.stepsLeft = st'.stepsLeft := by
  rw [stepsLeft, stepsLeft, h.services.stepsLeft_eq, h.setup]

end Startup

/-! ### Startups without replies to errands -/

namespace Startup

variable {st st' : Startup} {env : Surroundings}

/-- Whether an event is the reply to an errand. -/
def Event.isReply : Event → Bool
  | .services e => e.isReply
  | .proceed => false

/-- The events of a startup but for the replies to errands. -/
def unanswered (events : List (Surroundings × Event)) : List (Surroundings × Event) :=
  events.filter fun x => !x.2.isReply

/-- Two startups that do not differ in anything but their errands. -/
structure Abreast (st st' : Startup) : Prop where
  /-- The setups agree. -/
  setup : st.setup = st'.setup
  /-- Failures are reported in both or in neither. -/
  reports : st.reports = st'.reports
  /-- Strategies, schedulers and registrations agree. -/
  services : st.services.bare = st'.services.bare
  /-- The first login has come to the same in both. -/
  stage : st.stage = st'.stage ∨ st.stage.isPast = true ∧ st'.stage.isPast = true

theorem abreast_refl (st : Startup) : Abreast st st := ⟨rfl, rfl, rfl, .inl rfl⟩

theorem Abreast.symm (h : Abreast st st') : Abreast st' st :=
  ⟨h.setup.symm, h.reports.symm, h.services.symm, h.stage.imp Eq.symm And.symm⟩

theorem Abreast.trans {st'' : Startup} (h : Abreast st st') (h' : Abreast st' st'') :
    Abreast st st'' := by
  refine ⟨h.setup.trans h'.setup, h.reports.trans h'.reports, h.services.trans h'.services, ?_⟩
  rcases h.stage with hstage | ⟨hpast, -⟩
  · rw [hstage]
    exact h'.stage
  · rcases h'.stage with hstage' | ⟨-, hpast'⟩
    · rw [← hstage']
      exact h.stage
    · exact .inr ⟨hpast, hpast'⟩

theorem Abreast.step (h : Abreast st st') (env : Surroundings) (e : Services.Event) :
    Abreast { st with services := (st.services.step env e).1 }
      { st' with services := (st'.services.step env e).1 } :=
  ⟨h.setup, h.reports, Services.bare_step_congr h.services env e, h.stage⟩

/-- A reply to an errand leaves a startup abreast of the other one. -/
theorem Abreast.receive (h : Abreast st st') (i : Nat) (reply : Reply) :
    Abreast { st with services := (st.services.receive i reply).1 } st' :=
  ⟨h.setup, h.reports, (Services.bare_receive ..).trans h.services, h.stage⟩

theorem Abreast.launch (h : Abreast st st') (env : Surroundings) (issued : Option Issued) :
    Abreast (st.launch env issued) (st'.launch env issued) := by
  refine ⟨?_, ?_, ?_, .inr ⟨isPast_launch .., isPast_launch ..⟩⟩
  · rw [setup_launch, setup_launch, h.setup]
  · rw [Startup.launch, Startup.launch]
    split <;> split <;> exact h.reports
  · have hscheduled := Services.bare_schedulers_congr h.services
      (schedulers st'.setup st'.reports env.moment issued)
    rw [Startup.launch, Startup.launch, h.setup, h.reports]
    split
    · exact Services.bare_step_congr hscheduled env (.ask .health)
    · exact hscheduled

theorem Abreast.answer?_eq (h : Abreast st st') (p : Exchanger) (call : Nat) :
    st.services.answer? p call = st'.services.answer? p call := by
  rw [Services.answer?, Services.answer?, Services.provider?_eq_of_bare h.services]

theorem Abreast.isPast_iff (h : Abreast st st') : st.stage.isPast = st'.stage.isPast := by
  rcases h.stage with hstage | ⟨hpast, hpast'⟩
  · rw [hstage]
  · rw [hpast, hpast']

theorem Abreast.proceed (h : Abreast st st') (env : Surroundings) :
    Abreast (st.proceed env) (st'.proceed env) := by
  cases hst : st.stage.isPast with
  | true =>
    obtain ⟨hpast, hsetup, hreports, hservices⟩ := isPast_proceed hst env
    obtain ⟨hpast', hsetup', hreports', hservices'⟩ :=
      isPast_proceed (h.isPast_iff.symm.trans hst) env
    exact ⟨by rw [hsetup, hsetup', h.setup], by rw [hreports, hreports', h.reports],
      by rw [hservices, hservices', h.services], .inr ⟨hpast, hpast'⟩⟩
  | false =>
    have hstage : st.stage = st'.stage :=
      h.stage.resolve_right fun hpast => Bool.false_ne_true (hst.symm.trans hpast.1)
    rw [Startup.proceed, Startup.proceed, ← hstage]
    split
    · rw [h.answer?_eq]
      split
      · exact h.launch env _
      · exact ⟨h.setup, h.reports, h.services, .inl rfl⟩
      · exact h
    · rename_i i hchecking
      rw [hchecking] at hst
      cases hst
    · exact h
    · exact h

theorem Abreast.run_unanswered (h : Abreast st st') (events : List (Surroundings × Event)) :
    Abreast (st.run events).1 (st'.run (unanswered events)).1 ∧
      Services.apart (st.run events).2 = Services.apart (st'.run (unanswered events)).2 := by
  induction events generalizing st st' with
  | nil => exact ⟨h, rfl⟩
  | cons x rest ih =>
    obtain ⟨env, e⟩ := x
    cases e with
    | proceed =>
      rw [unanswered, List.filter_cons_of_pos rfl]
      exact ih (h.proceed env)
    | services e =>
      cases he : e.isReply with
      | true =>
        obtain ⟨i, reply, rfl⟩ : ∃ i reply, e = .reply i reply := by
          cases e with
          | reply i reply => exact ⟨i, reply, rfl⟩
          | _ => cases he
        have hnone := (Services.change_step env st.services (.reply i reply)).apart_of_task rfl
        rw [unanswered, List.filter_cons_of_neg (by simp [Event.isReply, he]), Startup.run]
        simp only [Services.apart_append]
        rw [show Services.apart (st.step env (.services (.reply i reply))).2 = [] from hnone]
        exact ih (h.receive i reply)
      | false =>
        have hsame := Services.apart_step_eq h.services env e
        obtain ⟨hrest, hmore⟩ := ih (h.step env e)
        rw [unanswered, List.filter_cons_of_pos (by simp [Event.isReply, he]), Startup.run,
          Startup.run]
        simp only [Services.apart_append]
        exact ⟨hrest, congr (congrArg _ hsame) hmore⟩

/-- **Replies to errands make no difference to a startup**, and it makes none if there are none: the
strategies, the schedulers and the registrations come to be the same, and so does the failure if
there is one. -/
theorem abreast_run {first second : List (Surroundings × Event)}
    (h : unanswered first = unanswered second) (st : Startup) :
    Abreast (st.run first).1 (st.run second).1 ∧
      Services.apart (st.run first).2 = Services.apart (st.run second).2 := by
  obtain ⟨hfirst, hfirst'⟩ := (abreast_refl st).run_unanswered first
  obtain ⟨hsecond, hsecond'⟩ := (abreast_refl st).run_unanswered second
  rw [h] at hfirst hfirst'
  exact ⟨hfirst.trans hsecond.symm, hfirst'.trans hsecond'.symm⟩

end Startup

/-! ### Sessions over two networks -/

namespace Session

variable {s t : Session} {first second : Network}

/-- Two sessions that have gone the same way, but for the outcome of the check of the server's
health. -/
structure Alike (s t : Session) : Prop where
  /-- The services have gone the same way. -/
  services : Services.Alike s.services t.services
  /-- Nobody has asked anything else. -/
  checking : Services.Checking s.services
  /-- The clocks show the same, and the files are the same. -/
  surroundings : s.surroundings = t.surroundings

/-- The user does nothing but wait: the timer clock jumps ahead again and again, each time by so
many nanoseconds, and whatever is due then happens. The notices of each time are kept. -/
def waits (network : Network) (s : Session) :
    List Nat → Session × List (Nat × List Services.Notice)
  | [] => (s, [])
  | nanos :: more =>
    let (s, notices) := s.skip network nanos
    let (last, rest) := waits network s more
    (last, (s.surroundings.moment, Services.apart notices) :: rest)

/-- **Sessions that have gone the same way go on the same way**, for as long as the user waits. -/
theorem Alike.waits (h : Alike s t)
    (hn : Services.RepliesAlike s.services.settings first second) (delays : List Nat) :
    Alike (s.waits first delays).1 (t.waits second delays).1 ∧
      (s.waits first delays).2 = (t.waits second delays).2 := by
  induction delays generalizing s t with
  | nil => exact ⟨h, rfl⟩
  | cons nanos more ih =>
    let env := { s.surroundings with moment := s.surroundings.moment + nanos }
    obtain ⟨halike, hchecking, hsettings, hsame⟩ :=
      h.services.exhaust h.checking hn env s.services.stepsLeft
    have hskip : s.skip first nanos
        = (⟨(s.services.rest first env).1, env⟩, (s.services.rest first env).2) := rfl
    have hskip' : t.skip second nanos
        = (⟨(t.services.rest second env).1, env⟩, (t.services.rest second env).2) := by
      simp only [skip, rest, env, h.surroundings]
    have hrest : t.services.rest second env
        = exhaust (Services.turn second env) s.services.stepsLeft t.services := by
      rw [Services.rest, h.services.stepsLeft_eq]
    have hafter : Alike (s.skip first nanos).1 (t.skip second nanos).1 := by
      rw [hskip, hskip', hrest]
      exact ⟨halike, hchecking, rfl⟩
    obtain ⟨hlast, hmore⟩ := ih hafter (by rw [hskip]; exact hsettings ▸ hn)
    refine ⟨hlast, ?_⟩
    have hnotices : Services.apart (s.skip first nanos).2
        = Services.apart (t.skip second nanos).2 := by
      rw [hskip, hskip', hrest]
      exact hsame
    simp only [Session.waits, hmore, hnotices, hafter.surroundings]

/-- **Startups over networks that differ in the reply to the health check alone.** Both fail with
the same failure, or both succeed, and then the two sessions go on the same way, for as long as the
user waits. -/
theorem start_congr (setup : Setup) (reports : Bool) (env : Surroundings)
    (hn : Services.RepliesAlike setup.vault first second) :
    ((∃ f, (start first setup reports env).1 = .error f ∧
        (start second setup reports env).1 = .error f) ∨
      ∃ s t, (start first setup reports env).1 = .ok s ∧
        (start second setup reports env).1 = .ok t ∧ ∀ delays,
          Alike (s.waits first delays).1 (t.waits second delays).1 ∧
            (s.waits first delays).2 = (t.waits second delays).2) ∧
      Services.apart (start first setup reports env).2
        = Services.apart (start second setup reports env).2 := by
  rw [start, start]
  cases hbegin : Startup.begin setup reports env with
  | error f => exact ⟨.inl ⟨f, rfl, rfl⟩, rfl⟩
  | ok st =>
    have hm := Startup.minding_begin hbegin
    have hsetup : st.setup = setup := Startup.setup_begin hbegin
    obtain ⟨halike, hminding, hsetup', hsame⟩ := Startup.Alike.exhaust ⟨rfl, rfl, rfl, .same rfl⟩ hm
      (by rw [hsetup]; exact hn) env st.stepsLeft
    change Startup.Alike (st.rest first env).1 (st.rest second env).1 at halike
    change Startup.Minding (st.rest first env).1 at hminding
    change (st.rest first env).1.setup = st.setup at hsetup'
    change Services.apart (st.rest first env).2 = Services.apart (st.rest second env).2 at hsame
    have hsettings := hminding.settings.trans (congrArg Setup.vault (hsetup'.trans hsetup))
    have hgone : Alike ⟨(st.rest first env).1.services, env⟩
        ⟨(st.rest second env).1.services, env⟩ := ⟨halike.services, hminding.checking, rfl⟩
    simp only
    cases hstage : (st.rest first env).1.stage with
    | failed f =>
      rw [halike.stage] at hstage
      simp only [hstage]
      exact ⟨.inl ⟨f, rfl, rfl⟩, hsame⟩
    | loggingIn | checking | started =>
      rw [halike.stage] at hstage
      simp only [hstage]
      exact ⟨.inr ⟨_, _, rfl, rfl, hgone.waits (by rw [hsettings]; exact hn)⟩, hsame⟩

end Session

end VaultTokens
