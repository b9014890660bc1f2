import VaultTokens.Services.Basic
import VaultTokens.Proofs.CallCourse

/-!
# What a step of the services does

The services are many machines side by side: errands, providers and schedulers. `Change` lists what
an event can do to them. What is done with providers and schedulers says nothing of an errand
(`Scheduled`). What is done with an errand takes it from one stage to another, and `Onward` has a
constructor for each way that leads on; of everything else it only begins calls (`Advanced`).
Nothing but the proof of `change_step` opens `step`.

Of a provider one can say more. Whatever happens to the services, it happens to a provider as some
events of its own, one after the other, and the notices it lets out are those of that run. `Traces`
says so, and what holds of every run of a provider alone thereby holds of it among the services.

## Main results

* `change_step` — every step is a change
* `run_induction` — what every change preserves holds after every run
* `Change.traces`, `traces_run` — a provider runs by itself
* `Change.tasks_eq_of_ne`, `Change.settings_eq` — what an event leaves alone
* `Change.onward` — an event leaves an errand alone, or takes it on
* `Change.provider_of_task` — an errand does nothing to a provider but to ask it
* `Change.healthCourse` — how a check of the server's health goes
-/

namespace VaultTokens

/-- A provider after some events. -/
def Guarded.after (g : Guarded) (events : List (Surroundings × Authenticator.Event)) : Guarded :=
  { g with strategy := (g.strategy.run g.method events).1 }

namespace Services

variable {s t u : Services} {env : Surroundings} {e : Event} {past new more : List Notice}
  {i : Nat} {p q : Exchanger}

/-! ### Providers among the services -/

/-- What a provider lets know, among everything that is let known. -/
def innards (p : Exchanger) (notices : List Notice) : List Authenticator.Notice :=
  notices.filterMap fun n =>
    match n with
    | .within q notice => if q = p then some notice else none
    | _ => none

theorem innards_append (p : Exchanger) (past new : List Notice) :
    innards p (past ++ new) = innards p past ++ innards p new :=
  List.filterMap_append

theorem innards_map_within (p : Exchanger) (notices : List Authenticator.Notice) :
    innards p (notices.map (Notice.within p)) = notices := by
  simp [innards, List.filterMap_map, Function.comp_def]

theorem innards_map_within_of_ne (h : q ≠ p) (notices : List Authenticator.Notice) :
    innards p (notices.map (Notice.within q)) = [] := by
  simp [innards, List.filterMap_map, Function.comp_def, h]

/-- Some events happen to a provider while the services go from one state to another, and what it
lets know is what it lets know at these events. -/
structure Traces (p : Exchanger) (events : List (Surroundings × Authenticator.Event))
    (s t : Services) (new : List Notice) : Prop where
  /-- Where the provider stands. -/
  provider : t.provider? p = (s.provider? p).map (·.after events)
  /-- What it lets know. -/
  notices : innards p new
    = (s.provider? p).elim [] fun g => (g.strategy.run g.method events).2

/-- To a provider that stays as it is and says nothing, nothing happens. -/
theorem Traces.still (hprovider : t.provider? p = s.provider? p) (hnew : innards p new = []) :
    Traces p [] s t new := by
  constructor
  · rw [hprovider]
    cases s.provider? p <;> rfl
  · rw [hnew]
    cases s.provider? p <;> rfl

theorem Traces.trans {before after : List (Surroundings × Authenticator.Event)}
    (hbefore : Traces p before s t new) (hafter : Traces p after t u more) :
    Traces p (before ++ after) s u (new ++ more) := by
  constructor
  · rw [hafter.provider, hbefore.provider]
    cases s.provider? p with
    | none => rfl
    | some g =>
      simp only [Option.map_some, Guarded.after, Authenticator.run_append]
  · rw [innards_append, hbefore.notices, hafter.notices, hbefore.provider]
    cases s.provider? p with
    | none => rfl
    | some g =>
      simp only [Option.map_some, Option.elim_some, Guarded.after, Authenticator.run_append]

/-- What happens to one provider happens to that one alone. -/
theorem traces_within (env : Surroundings) (s : Services) (p q : Exchanger)
    (e : Authenticator.Event) :
    Traces q (if q = p then [(env, e)] else []) s (s.within env p e).1 (s.within env p e).2 := by
  cases hs : s.provider? p with
  | none =>
    have hwithin : s.within env p e = (s, []) := by rw [within, hs]
    rw [hwithin]
    by_cases hq : q = p
    · subst hq
      rw [if_pos rfl]
      exact ⟨by rw [hs]; rfl, by rw [hs]; rfl⟩
    · rw [if_neg hq]
      exact .still rfl rfl
  | some g =>
    have hwithin : s.within env p e = (s.setProvider p (g.after [(env, e)]),
        ((g.strategy.step g.method env e).2.map (Notice.within p))) := by
      rw [within, hs]
      rfl
    rw [hwithin]
    by_cases hq : q = p
    · subst hq
      rw [if_pos rfl]
      constructor
      · rw [provider?_setProvider_self hs, hs]
        rfl
      · rw [innards_map_within, hs]
        simp [Authenticator.run]
    · rw [if_neg hq]
      exact .still (provider?_setProvider_of_ne s _ hq) (innards_map_within_of_ne (Ne.symm hq) _)

theorem mem_innards {n : Authenticator.Notice} (h : .within p n ∈ new) : n ∈ innards p new :=
  List.mem_filterMap.mpr ⟨_, h, if_pos rfl⟩

/-- **What a call was answered, it stays answered, and then it sends nothing more.** -/
theorem Traces.answer? {events : List (Surroundings × Authenticator.Event)}
    (h : Traces p events s t new) {call : Nat} {answer : Authenticator.Answer}
    (ha : s.answer? p call = some answer) :
    t.answer? p call = some answer ∧ ∀ r, .within p (.sent call r) ∉ new := by
  obtain ⟨g, hg, hanswer⟩ := Option.bind_eq_some_iff.mp ha
  obtain ⟨d, hc⟩ := Authenticator.answer?_eq_some.mp hanswer
  obtain ⟨hfinished, hsilent⟩ := Authenticator.finished_run hc g.method events
  constructor
  · rw [Services.answer?, h.provider, hg]
    exact Authenticator.answer?_eq_some.mpr ⟨d, hfinished⟩
  · intro r hr
    have hmem := mem_innards hr
    rw [h.notices, hg] at hmem
    exact hsilent _ hmem rfl

/-! ### Errands and their notices -/

/-- The errand that a notice is about. -/
def Notice.task? : Notice → Option Nat
  | .asked i _ _ => some i
  | .sent i _ => some i
  | .finished i _ => some i
  | _ => none

/-- What is let known about an errand. -/
def about (i : Nat) (notices : List Notice) : List Notice :=
  notices.filter fun n => n.task? = some i

theorem about_append (i : Nat) (past new : List Notice) :
    about i (past ++ new) = about i past ++ about i new :=
  List.filter_append ..

/-- The errand that an event is about. -/
def Event.task? : Event → Option Nat
  | .proceed i => some i
  | .reply i _ => some i
  | _ => none

/-- What is let known when an errand enters a stage. -/
def ending (i : Nat) : Errand.Stage → List Notice
  | .finished outcome => [.finished i outcome]
  | _ => []

theorem resume_eq (s : Services) (i : Nat) (errand : Errand) (answer : Authenticator.Answer) :
    s.resume i errand answer
      = (errand.answered? answer).elim (s, []) fun stage => (s.enter i stage, ending i stage) := by
  rw [resume]
  split
  · rename_i h
    rw [h]
    rfl
  · rename_i h
    rw [h]
    rfl
  · rename_i stage hover h
    rw [h]
    cases stage <;> first | rfl | exact absurd rfl (hover _)

theorem answered?_fixedAnswer {errand : Errand} {method name : String}
    {demand : Authenticator.Demand} (hd : errand.demand? method = some (name, demand))
    (token : String) :
    ∃ stage, errand.answered? (Errand.fixedAnswer token demand) = some stage := by
  cases errand with
  | health | kubernetesLogin => cases hd
  | secret | login | token =>
    cases hd
    exact ⟨_, rfl⟩

@[simp]
theorem provider?_enter (s : Services) (i : Nat) (stage : Errand.Stage) (p : Exchanger) :
    (s.enter i stage).provider? p = s.provider? p := by
  rcases p with (_ | _) | _ <;> rfl

theorem tasks_enter_of_ne {j : Nat} (h : j ≠ i) (stage : Errand.Stage) :
    (s.enter j stage).tasks[i]? = s.tasks[i]? := by
  rw [enter, Array.getElem?_modify, if_neg h]

theorem tasks_enter_self {task : Task} (hc : s.tasks[i]? = some task) (stage : Errand.Stage) :
    (s.enter i stage).tasks[i]? = some ⟨task.errand, stage⟩ := by
  rw [enter, Array.getElem?_modify, if_pos rfl, hc]
  rfl

/-- The calls that errands begin with a provider, according to what is let known. -/
def demands (env : Surroundings) (p : Exchanger) (new : List Notice) :
    List (Surroundings × Authenticator.Event) :=
  new.filterMap fun n =>
    match n with
    | .asked _ (.provided q) demand => if q = p then some (env, .begin demand) else none
    | _ => none

theorem eq_begin_of_mem_demands {x : Surroundings × Authenticator.Event}
    (hx : x ∈ demands env p new) : ∃ demand, x = (env, .begin demand) := by
  obtain ⟨n, -, hn⟩ := List.mem_filterMap.mp hx
  split at hn
  · split at hn
    · exact ⟨_, (Option.some.inj hn).symm⟩
    · cases hn
  · cases hn

/-- To begin a call lets nothing known. -/
theorem run_demands_silent (g : Guarded) (env : Surroundings) (p : Exchanger)
    (new : List Notice) : (g.strategy.run g.method (demands env p new)).2 = [] := by
  have silent : ∀ (events : List (Surroundings × Authenticator.Event)) (a : Authenticator),
      (∀ x ∈ events, ∃ demand, x = (env, .begin demand)) → (a.run g.method events).2 = [] := by
    intro events
    induction events with
    | nil => exact fun _ _ => rfl
    | cons x rest ih =>
      intro a h
      obtain ⟨demand, rfl⟩ := h x List.mem_cons_self
      rw [Authenticator.run_cons]
      exact ih _ fun y hy => h y (List.mem_cons_of_mem _ hy)
  exact silent _ _ fun x hx => eq_begin_of_mem_demands hx

/-! ### One errand -/

/-- How an event takes an errand on to its next stage, and what is let known of it. -/
inductive Onward (s : Services) (i : Nat) (errand : Errand) :
    Event → Errand.Stage → Errand.Stage → List Notice → Prop where
  /-- It finds no strategy under the name. -/
  | misses {name : String} {demand : Authenticator.Demand}
    (hd : errand.demand? s.settings.method = some (name, demand))
    (hr : ∀ strategy, s.registry.find? name = some strategy →
      ∃ p, strategy = .provided p ∧ s.provider? p = none) :
    Onward s i errand (.proceed i) .begun (.finished (errand.failed (Registry.unknown name)))
      [.finished i (errand.failed (Registry.unknown name))]
  /-- It asks a strategy with a fixed token, which answers at once. -/
  | asksFixed {name : String} {demand : Authenticator.Demand} {token : String}
    {stage : Errand.Stage} (hd : errand.demand? s.settings.method = some (name, demand))
    (hr : s.registry.find? name = some (.fixed token))
    (hs : errand.answered? (Errand.fixedAnswer token demand) = some stage) :
    Onward s i errand (.proceed i) .begun stage
      (.asked i (.fixed token) demand :: ending i stage)
  /-- It asks a provider. -/
  | asksProvider {name : String} {demand : Authenticator.Demand} {p : Exchanger} {g : Guarded}
    (hd : errand.demand? s.settings.method = some (name, demand))
    (hr : s.registry.find? name = some (.provided p)) (hg : s.provider? p = some g) :
    Onward s i errand (.proceed i) .begun (.asking p g.strategy.calls.size)
      [.asked i (.provided p) demand]
  /-- It takes the answer of its provider. -/
  | resumes {p : Exchanger} {call : Nat} {answer : Authenticator.Answer} {stage : Errand.Stage}
    (ha : s.answer? p call = some answer) (hs : errand.answered? answer = some stage) :
    Onward s i errand (.proceed i) (.asking p call) stage (ending i stage)
  /-- It sends its request. -/
  | sends {stage : Errand.Stage} {token : String} {r : Request}
    (hstage : stage = .begun ∧ errand.demand? s.settings.method = none ∧ token = "" ∨
      stage = .sending token)
    (hr : errand.request? s.settings token = some (.ok r)) :
    Onward s i errand (.proceed i) stage (.exchanging r) [.sent i r]
  /-- Its request cannot be sent. -/
  | lacks {stage : Errand.Stage} {token : String} {f : Failure}
    (hstage : stage = .begun ∧ errand.demand? s.settings.method = none ∧ token = "" ∨
      stage = .sending token)
    (hr : errand.request? s.settings token = some (.error f)) :
    Onward s i errand (.proceed i) stage (.finished (errand.failed f))
      [.finished i (errand.failed f)]
  /-- The reply to it arrives. -/
  | hears {r : Request} {outcome : Errand.Outcome} (reply : Reply)
    (ho : errand.conclude? r reply = some outcome) :
    Onward s i errand (.reply i reply) (.exchanging r) (.finished outcome)
      [.finished i outcome]

variable {errand : Errand} {stage next : Errand.Stage}

theorem Onward.task?_eq (h : Onward s i errand e stage next new) : e.task? = some i := by
  cases h <;> rfl

/-- What is let known is about the errand. -/
theorem Onward.task?_of_mem (h : Onward s i errand e stage next new) {n : Notice}
    (hn : n ∈ new) : n.task? = some i := by
  have own : ∀ {stage : Errand.Stage}, n ∈ ending i stage → n.task? = some i := by
    intro stage hn
    cases stage with
    | finished outcome =>
      rw [List.mem_singleton.mp hn]
      rfl
    | _ => cases hn
  cases h with
  | misses | asksProvider | sends | lacks | hears =>
    rw [List.mem_singleton.mp hn]
    rfl
  | asksFixed =>
    rcases List.mem_cons.mp hn with rfl | hn
    · rfl
    · exact own hn
  | resumes => exact own hn

theorem Onward.about_eq (h : Onward s i errand e stage next new) : about i new = new :=
  List.filter_eq_self.mpr fun _ hn => by simpa using h.task?_of_mem hn

theorem Onward.innards_eq (h : Onward s i errand e stage next new) (p : Exchanger) :
    innards p new = [] := by
  refine List.filterMap_eq_nil_iff.mpr fun n hn => ?_
  cases n with
  | within => cases h.task?_of_mem hn
  | _ => rfl

/-- The services behind a step of an errand: it is at another stage, and providers have got the
calls that it has begun. -/
structure Advanced (env : Surroundings) (s : Services) (i : Nat) (next : Errand.Stage)
    (t : Services) (new : List Notice) : Prop where
  /-- The errand is at another stage. -/
  tasks : t.tasks = (s.enter i next).tasks
  /-- The settings stay. -/
  settings : t.settings = s.settings
  /-- The registrations stay. -/
  registry : t.registry = s.registry
  /-- The schedulers stay. -/
  schedulers : t.schedulers = s.schedulers
  /-- Every provider has got the calls that were begun with it. -/
  providers : ∀ p, t.provider? p = (s.provider? p).map (·.after (demands env p new))

theorem provider?_map_after_nil (s : Services) (p : Exchanger) :
    (s.provider? p).map (·.after []) = s.provider? p := by
  cases s.provider? p <;> rfl

/-- An errand that begins no call only enters its stage. -/
theorem advanced_enter (env : Surroundings) (s : Services) (i : Nat) (next : Errand.Stage)
    (hnone : ∀ p, demands env p new = []) : Advanced env s i next (s.enter i next) new := by
  refine ⟨rfl, rfl, rfl, rfl, fun p => ?_⟩
  rw [hnone, provider?_map_after_nil, provider?_enter]

theorem demands_ending (env : Surroundings) (p : Exchanger) (i : Nat) (stage : Errand.Stage) :
    demands env p (ending i stage) = [] := by
  cases stage <;> rfl

theorem registry_setProvider (s : Services) (p : Exchanger) (g : Guarded) :
    (s.setProvider p g).registry = s.registry := by
  rcases p with (_ | _) | _ <;> rfl

/-- An errand that begins a call enters its stage, and its provider has got the call. -/
theorem advanced_call (env : Surroundings) {g : Guarded} (hg : s.provider? p = some g)
    (demand : Authenticator.Demand) (next : Errand.Stage) :
    Advanced env s i next ((s.setProvider p (g.after [(env, .begin demand)])).enter i next)
      [.asked i (.provided p) demand] := by
  refine ⟨?_, settings_setProvider .., registry_setProvider .., schedulers_setProvider .., ?_⟩
  · rw [enter, enter, tasks_setProvider]
  · intro q
    by_cases hq : p = q
    · subst hq
      rw [provider?_enter, provider?_setProvider_self hg, hg]
      simp [demands]
    · rw [provider?_enter, provider?_setProvider_of_ne s _ (Ne.symm hq)]
      simp [demands, hq, provider?_map_after_nil]

/-! ### What schedulers do -/

/-- The services go from one state to another without a word about an errand: errands, settings and
registrations stay, and every provider runs by itself. -/
structure Scheduled (s t : Services) (new : List Notice) : Prop where
  /-- The errands stay. -/
  tasks : t.tasks = s.tasks
  /-- The settings stay. -/
  settings : t.settings = s.settings
  /-- The registrations stay. -/
  registry : t.registry = s.registry
  /-- Every provider runs by itself. -/
  traces : ∀ p, ∃ events, Traces p events s t new
  /-- Nothing is let known about an errand. -/
  silent : ∀ n ∈ new, n.task? = none

theorem Scheduled.refl (s : Services) : Scheduled s s [] :=
  ⟨rfl, rfl, rfl, fun _ => ⟨[], .still rfl rfl⟩, List.forall_mem_nil _⟩

theorem Scheduled.trans (h : Scheduled s t new) (h' : Scheduled t u more) :
    Scheduled s u (new ++ more) := by
  refine ⟨h'.tasks.trans h.tasks, h'.settings.trans h.settings, h'.registry.trans h.registry, ?_, ?_⟩
  · intro p
    obtain ⟨before, hbefore⟩ := h.traces p
    obtain ⟨after, hafter⟩ := h'.traces p
    exact ⟨before ++ after, hbefore.trans hafter⟩
  · intro n hn
    rcases List.mem_append.mp hn with hn | hn
    · exact h.silent n hn
    · exact h'.silent n hn

theorem scheduled_within (env : Surroundings) (s : Services) (p : Exchanger)
    (e : Authenticator.Event) : Scheduled s (s.within env p e).1 (s.within env p e).2 := by
  refine ⟨?_, ?_, ?_, fun q => ⟨_, traces_within env s p q e⟩, ?_⟩
  · rw [within]
    split <;> simp
  · rw [within]
    split <;> simp
  · rw [within]
    split
    · rfl
    · exact registry_setProvider ..
  · rw [within]
    split
    · exact List.forall_mem_nil _
    · intro n hn
      obtain ⟨n', -, rfl⟩ := List.mem_map.mp hn
      rfl

theorem Scheduled.setScheduler (h : Scheduled s t new) (k : Nat)
    (scheduler : Renewal.Scheduler Nat) : Scheduled s (t.setScheduler k scheduler) new := by
  refine ⟨h.tasks, h.settings, h.registry, ?_, h.silent⟩
  intro p
  obtain ⟨events, hevents⟩ := h.traces p
  refine ⟨events, ?_, hevents.notices⟩
  rw [← hevents.provider]
  rcases p with (_ | _) | _ <;> rfl

/-- What is said without a word about an errand or of a provider changes nothing about either. -/
theorem Scheduled.remark (h : Scheduled s t new) (hmore : ∀ n ∈ more, ∃ p f, n = .reported p f) :
    Scheduled s t (new ++ more) := by
  refine ⟨h.tasks, h.settings, h.registry, ?_, ?_⟩
  · intro p
    obtain ⟨events, hevents⟩ := h.traces p
    refine ⟨events, hevents.provider, ?_⟩
    have hnone : innards p more = [] := by
      rw [innards, List.filterMap_eq_nil_iff]
      intro n hn
      obtain ⟨q, f, rfl⟩ := hmore n hn
      rfl
    rw [innards_append, hnone, List.append_nil, hevents.notices]
  · intro n hn
    rcases List.mem_append.mp hn with hn | hn
    · exact h.silent n hn
    · obtain ⟨q, f, rfl⟩ := hmore n hn
      rfl

theorem scheduled_fire (env : Surroundings) (s : Services) (k : Nat) :
    Scheduled s (s.fire env k).1 (s.fire env k).2 := by
  rw [fire]
  split
  · exact .refl s
  · split
    · exact (scheduled_within env s _ _).setScheduler k _
    · exact .refl s

theorem scheduled_settle (env : Surroundings) (s : Services) (k : Nat) :
    Scheduled s (s.settle env k).1 (s.settle env k).2 := by
  rw [settle]
  split
  · exact .refl s
  · rename_i p scheduler hk
    split
    · refine ((Scheduled.refl s).setScheduler k _).remark fun n hn => ?_
      obtain ⟨f, -, rfl⟩ := Option.map_eq_some_iff.mp (Option.mem_toList.mp hn)
      exact ⟨p, f, rfl⟩
    · exact .refl s

/-- Giving a call up lets nothing known. -/
theorem within_cancel_silent (env : Surroundings) (s : Services) (p : Exchanger) (call : Nat) :
    (s.within env p (.cancel call)).2 = [] := by
  rw [within]
  split <;> rfl

theorem scheduled_command (env : Surroundings) (s : Services) (k : Nat)
    (f : Renewal.Scheduler Nat → Renewal.Scheduler Nat × Option Nat) :
    Scheduled s (s.command env k f) [] := by
  rw [command]
  split
  · exact .refl s
  · rename_i p scheduler hk
    split
    · exact (Scheduled.refl s).setScheduler k _
    · rename_i call hf
      have hwithin := scheduled_within env s p (.cancel call)
      rw [within_cancel_silent] at hwithin
      exact hwithin.setScheduler k _

theorem scheduled_shutdown (env : Surroundings) (s : Services) :
    Scheduled s (s.shutdown env) [] := by
  rw [shutdown]
  generalize List.range s.schedulers.length = ks
  induction ks generalizing s with
  | nil => exact .refl s
  | cons k ks ih => exact (scheduled_command env s k _).trans (ih _)

/-! ### One step -/

/-- Whether an event is about calls to a provider or about schedulers. -/
def Event.isScheduling : Event → Bool
  | .advance .. | .deliver .. | .fire _ | .settle _ | .start _ | .startFrom .. | .stop _
  | .shutdown => true
  | _ => false

theorem Event.task?_of_isScheduling (he : e.isScheduling = true) : e.task? = none := by
  cases e <;> first | rfl | cases he

/-- What an event can do to the services, and what it lets others know. -/
inductive Change (env : Surroundings) (s : Services) : Event → Services → List Notice → Prop where
  /-- Nothing. -/
  | nothing (e : Event) : Change env s e s []
  /-- An errand begins. -/
  | asks (errand : Errand) :
    Change env s (.ask errand) { s with tasks := s.tasks.push ⟨errand, .begun⟩ } []
  /-- A strategy is registered. -/
  | registers (name : String) (strategy : Strategy) :
    Change env s (.register name strategy)
      { s with registry := s.registry.register name strategy } []
  /-- Something happens to a provider or a scheduler. -/
  | schedules {e : Event} {t : Services} {new : List Notice} (he : e.isScheduling = true)
    (ht : Scheduled s t new) : Change env s e t new
  /-- An errand goes on. -/
  | goes {e : Event} {t : Services} {new : List Notice} {i : Nat} {errand : Errand}
    {stage next : Errand.Stage} (hc : s.tasks[i]? = some ⟨errand, stage⟩)
    (honward : Onward s i errand e stage next new) (ht : Advanced env s i next t new) :
    Change env s e t new

theorem change_dispatch (env : Surroundings) {token : String}
    (hc : s.tasks[i]? = some ⟨errand, stage⟩)
    (hstage : stage = .begun ∧ errand.demand? s.settings.method = none ∧ token = "" ∨
      stage = .sending token) :
    Change env s (.proceed i) (s.dispatch i errand token).1 (s.dispatch i errand token).2 := by
  rw [dispatch]
  split
  · exact .nothing _
  · rename_i r hr
    exact .goes hc (.sends hstage hr) (advanced_enter env s i _ fun _ => rfl)
  · rename_i f hr
    exact .goes hc (.lacks hstage hr) (advanced_enter env s i _ fun _ => rfl)

theorem change_consult (env : Surroundings) {name : String} {demand : Authenticator.Demand}
    (hc : s.tasks[i]? = some ⟨errand, .begun⟩)
    (hd : errand.demand? s.settings.method = some (name, demand)) :
    Change env s (.proceed i) (s.consult env i errand name demand).1
      (s.consult env i errand name demand).2 := by
  have missed : (∀ strategy, s.registry.find? name = some strategy →
        ∃ p, strategy = .provided p ∧ s.provider? p = none) →
      Change env s (.proceed i) (s.enter i (.finished (errand.failed (Registry.unknown name))))
        [.finished i (errand.failed (Registry.unknown name))] :=
    fun hr => .goes hc (.misses hd hr) (advanced_enter env s i _ fun _ => rfl)
  rw [consult, Registry.resolve]
  cases hr : s.registry.find? name with
  | none => exact missed fun strategy hs => by cases hr.symm.trans hs
  | some strategy =>
    cases strategy with
    | fixed token =>
      obtain ⟨next, hs⟩ := answered?_fixedAnswer hd token
      simp only [resume_eq, hs, Option.elim_some]
      exact .goes hc (.asksFixed hd hr hs)
        (advanced_enter env s i next fun p => demands_ending env p i next)
    | provided p =>
      cases hg : s.provider? p with
      | none =>
        simp only [nextCall?, hg, Option.map_none]
        exact missed fun strategy hs => ⟨p, Option.some.inj (hs.symm.trans hr), hg⟩
      | some g =>
        simp only [nextCall?, hg, Option.map_some, within]
        exact .goes hc (.asksProvider hd hr hg) (advanced_call env hg demand _)

theorem change_proceed (env : Surroundings) (s : Services) (i : Nat) :
    Change env s (.proceed i) (s.proceed env i).1 (s.proceed env i).2 := by
  rw [proceed]
  split
  · exact .nothing _
  · rename_i errand hc
    split
    · rename_i name demand hd
      exact change_consult env hc hd
    · rename_i hd
      exact change_dispatch env hc (.inl ⟨rfl, hd, rfl⟩)
  · rename_i errand p call hc
    split
    · exact .nothing _
    · rename_i answer ha
      rw [resume_eq]
      cases hs : errand.answered? answer with
      | none => exact .nothing _
      | some stage =>
        exact .goes hc (.resumes ha hs)
          (advanced_enter env s i stage fun p => demands_ending env p i stage)
  · rename_i errand token hc
    exact change_dispatch env hc (.inr rfl)
  · exact .nothing _
  · exact .nothing _

theorem change_receive (env : Surroundings) (s : Services) (i : Nat) (reply : Reply) :
    Change env s (.reply i reply) (s.receive i reply).1 (s.receive i reply).2 := by
  rw [receive]
  split
  · rename_i errand r hc
    split
    · exact .nothing _
    · rename_i outcome ho
      exact .goes hc (.hears reply ho) (advanced_enter env s i _ fun _ => rfl)
  · exact .nothing _

/-- **Every step is a change.** -/
theorem change_step (env : Surroundings) (s : Services) (e : Event) :
    Change env s e (s.step env e).1 (s.step env e).2 := by
  cases e with
  | ask errand => exact .asks errand
  | proceed i => exact change_proceed env s i
  | reply i reply => exact change_receive env s i reply
  | advance p call => exact .schedules rfl (scheduled_within env s p _)
  | deliver p call reply => exact .schedules rfl (scheduled_within env s p _)
  | fire k => exact .schedules rfl (scheduled_fire env s k)
  | settle k => exact .schedules rfl (scheduled_settle env s k)
  | start k => exact .schedules rfl (scheduled_command env s k _)
  | startFrom k lease => exact .schedules rfl (scheduled_command env s k _)
  | stop k => exact .schedules rfl (scheduled_command env s k _)
  | shutdown => exact .schedules rfl (scheduled_shutdown env s)
  | register name strategy => exact .registers name strategy

/-! ### What an event leaves alone -/

theorem Change.settings_eq (h : Change env s e t new) : t.settings = s.settings := by
  cases h with
  | nothing | asks | registers => rfl
  | schedules he ht => exact ht.settings
  | goes hc honward ht => exact ht.settings

/-- Only registrations change what names lead to. -/
theorem Change.registry_eq (h : Change env s e t new)
    (he : ∀ name strategy, e ≠ .register name strategy) : t.registry = s.registry := by
  cases h with
  | nothing | asks => rfl
  | registers name strategy => exact absurd rfl (he name strategy)
  | schedules he ht => exact ht.registry
  | goes hc honward ht => exact ht.registry

/-- An errand leaves the schedulers alone. -/
theorem Change.schedulers_eq (h : Change env s e t new) (hi : e.task? = some i) :
    t.schedulers = s.schedulers := by
  cases h with
  | nothing => rfl
  | asks | registers => cases hi
  | schedules he ht => cases (Event.task?_of_isScheduling he).symm.trans hi
  | goes hc honward ht => exact ht.schedulers

/-- What an event lets known of an errand is about its own. -/
theorem Change.task?_eq_of_mem (h : Change env s e t new) {n : Notice} (hn : n ∈ new)
    (hi : n.task? = some i) : e.task? = some i := by
  cases h with
  | nothing | asks | registers => cases hn
  | schedules he ht => cases (ht.silent n hn).symm.trans hi
  | goes hc honward ht => exact honward.task?_eq.trans ((honward.task?_of_mem hn).symm.trans hi)

theorem Change.about_of_ne (h : Change env s e t new) (hi : e.task? ≠ some i) :
    about i new = [] := by
  rw [about, List.filter_eq_nil_iff]
  intro n hn
  simpa using fun hni => hi (h.task?_eq_of_mem hn hni)

/-- **An event leaves the other errands alone.** -/
theorem Change.tasks_eq_of_ne (h : Change env s e t new) {task : Task}
    (hc : s.tasks[i]? = some task) (hi : e.task? ≠ some i) : t.tasks[i]? = some task := by
  cases h with
  | nothing | registers => exact hc
  | asks errand =>
    have hlt := (Array.getElem?_eq_some_iff.mp hc).1
    rwa [Array.getElem?_push_lt hlt, ← Array.getElem?_eq_getElem hlt]
  | schedules he ht => exact ht.tasks ▸ hc
  | goes hc' honward ht =>
    rw [ht.tasks, tasks_enter_of_ne fun hji => hi (honward.task?_eq.trans (congrArg some hji))]
    exact hc

/-- **An event leaves an errand alone, or takes it on to its next stage.** -/
theorem Change.onward (h : Change env s e t new) (hc : s.tasks[i]? = some ⟨errand, stage⟩) :
    t.tasks[i]? = some ⟨errand, stage⟩ ∧ about i new = [] ∨
      ∃ next, t.tasks[i]? = some ⟨errand, next⟩ ∧ Onward s i errand e stage next new := by
  by_cases hi : e.task? = some i
  · cases h with
    | nothing => exact .inl ⟨hc, rfl⟩
    | asks | registers => cases hi
    | schedules he ht => cases (Event.task?_of_isScheduling he).symm.trans hi
    | goes hc' honward ht =>
      obtain rfl := Option.some.inj (honward.task?_eq.symm.trans hi)
      cases hc'.symm.trans hc
      exact .inr ⟨_, by rw [ht.tasks]; exact tasks_enter_self hc _, honward⟩
  · exact .inl ⟨h.tasks_eq_of_ne hc hi, h.about_of_ne hi⟩

/-- An errand is one of before, or it has just begun. -/
theorem Change.task_cases (h : Change env s e t new) {task : Task}
    (hc : t.tasks[i]? = some task) :
    (∃ stage, s.tasks[i]? = some ⟨task.errand, stage⟩) ∨
      s.tasks[i]? = none ∧ task.stage = .begun := by
  cases hs : s.tasks[i]? with
  | some old =>
    obtain ⟨errand, stage⟩ := old
    rcases h.onward hs with ⟨hsame, -⟩ | ⟨next, hnext, -⟩
    · cases hsame.symm.trans hc
      exact .inl ⟨_, rfl⟩
    · cases hnext.symm.trans hc
      exact .inl ⟨_, rfl⟩
  | none =>
    right
    cases h with
    | asks errand =>
      rw [Array.getElem?_push] at hc
      split at hc
      · obtain rfl := Option.some.inj hc
        exact ⟨rfl, rfl⟩
      · cases hs.symm.trans hc
    | nothing | registers => cases hs.symm.trans hc
    | schedules he ht => cases (ht.tasks ▸ hs).symm.trans hc
    | goes hc' honward ht =>
      rw [ht.tasks, enter, Array.getElem?_modify, hs] at hc
      split at hc <;> cases hc

/-- Of an errand that is not there nothing is let known. -/
theorem Change.about_of_none (h : Change env s e t new) (hs : s.tasks[i]? = none) :
    about i new = [] := by
  by_cases hi : e.task? = some i
  · cases h with
    | nothing => rfl
    | asks | registers => cases hi
    | schedules he ht => cases (Event.task?_of_isScheduling he).symm.trans hi
    | goes hc honward ht =>
      obtain rfl := Option.some.inj (honward.task?_eq.symm.trans hi)
      cases hs.symm.trans hc
  · exact h.about_of_ne hi

/-- **To a provider a step of an errand does nothing but to begin the calls it is known to ask
for.** -/
theorem Change.provider_of_task (h : Change env s e t new) (hi : e.task? = some i)
    (p : Exchanger) : t.provider? p = (s.provider? p).map (·.after (demands env p new)) := by
  cases h with
  | nothing => exact (provider?_map_after_nil s p).symm
  | asks | registers => cases hi
  | schedules he ht => cases (Event.task?_of_isScheduling he).symm.trans hi
  | goes hc honward ht => exact ht.providers p

/-- To a provider it happens that the calls begin. -/
theorem Onward.traces (h : Onward s i errand e stage next new) (ht : Advanced env s i next t new)
    (p : Exchanger) : Traces p (demands env p new) s t new := by
  refine ⟨ht.providers p, ?_⟩
  rw [h.innards_eq p]
  cases s.provider? p with
  | none => rfl
  | some g => exact (run_demands_silent g env p new).symm

/-- **A provider runs by itself.** -/
theorem Change.traces (h : Change env s e t new) (p : Exchanger) :
    ∃ events, Traces p events s t new := by
  cases h with
  | nothing | asks => exact ⟨[], .still (by rcases p with (_ | _) | _ <;> rfl) rfl⟩
  | registers => exact ⟨[], .still (by rcases p with (_ | _) | _ <;> rfl) rfl⟩
  | schedules he ht => exact ht.traces p
  | goes hc honward ht => exact ⟨_, honward.traces ht p⟩

/-! ### Runs -/

theorem run_cons (s : Services) (env : Surroundings) (e : Event)
    (rest : List (Surroundings × Event)) :
    s.run ((env, e) :: rest)
      = (((s.step env e).1.run rest).1, (s.step env e).2 ++ ((s.step env e).1.run rest).2) := rfl

theorem run_append (s : Services) (before after : List (Surroundings × Event)) :
    s.run (before ++ after) = (((s.run before).1.run after).1,
      (s.run before).2 ++ ((s.run before).1.run after).2) := by
  induction before generalizing s with
  | nil => rfl
  | cons x rest ih => rw [List.cons_append, run_cons, run_cons, ih, List.append_assoc]

/-- What every change preserves holds after every run. -/
theorem run_induction_after (P : Services → List Notice → Prop)
    (hstep : ∀ {env e s t past new}, Change env s e t new → P s past → P t (past ++ new))
    (h : P s past) (events : List (Surroundings × Event)) :
    P (s.run events).1 (past ++ (s.run events).2) := by
  induction events generalizing s past with
  | nil =>
    rw [run, List.append_nil]
    exact h
  | cons x rest ih =>
    obtain ⟨env, e⟩ := x
    rw [run_cons, ← List.append_assoc]
    exact ih (hstep (change_step env s e) h)

/-- **What every change preserves holds after every run.** -/
theorem run_induction (P : Services → List Notice → Prop)
    (hstep : ∀ {env e s t past new}, Change env s e t new → P s past → P t (past ++ new))
    (h : P s []) (events : List (Surroundings × Event)) : P (s.run events).1 (s.run events).2 :=
  run_induction_after P hstep h events

/-- What every step preserves holds after every run. -/
theorem run_preserves {P : Services → Prop}
    (hstep : ∀ (s : Services) (env : Surroundings) (e : Event), P s → P (s.step env e).1)
    (h : P s) (events : List (Surroundings × Event)) : P (s.run events).1 := by
  induction events generalizing s with
  | nil => exact h
  | cons x rest ih => exact ih (hstep s x.1 x.2 h)

/-- **A provider runs by itself, for as long as the services run.** -/
theorem traces_run (s : Services) (events : List (Surroundings × Event)) (p : Exchanger) :
    ∃ own, Traces p own s (s.run events).1 (s.run events).2 := by
  refine run_induction (fun t past => ∃ own, Traces p own s t past) ?_ ⟨[], .still rfl rfl⟩ events
  rintro env e t u past new hchange ⟨before, hbefore⟩
  obtain ⟨after, hafter⟩ := hchange.traces p
  exact ⟨before ++ after, hbefore.trans hafter⟩

/-! ### Health checks -/

/-- How a check of the server's health goes: how far it is and what has been let known about it. It
asks nobody for a token. -/
inductive HealthCourse (settings : VaultSettings) (i : Nat) : Errand.Stage → List Notice → Prop where
  /-- Nothing has happened yet. -/
  | begun : HealthCourse settings i .begun []
  /-- The request cannot be sent. -/
  | refused {f : Failure} (hr : Health.prepare settings = .error f) :
    HealthCourse settings i (.finished (.checked (.error f)))
      [.finished i (.checked (.error f))]
  /-- The request is on its way. -/
  | sent {r : Request} (hr : Health.prepare settings = .ok r) :
    HealthCourse settings i (.exchanging r) [.sent i r]
  /-- The request was replied to. -/
  | answered {r : Request} (hr : Health.prepare settings = .ok r) (reply : Reply) :
    HealthCourse settings i (.finished (.checked (Health.conclude r.url reply)))
      [.sent i r, .finished i (.checked (Health.conclude r.url reply))]

/-- A step takes a check of the server's health along its course. -/
theorem Change.healthCourse (h : Change env s e t new) {stage : Errand.Stage}
    (hc : s.tasks[i]? = some ⟨.health, stage⟩)
    (hcourse : HealthCourse s.settings i stage (about i past)) :
    ∃ next, t.tasks[i]? = some ⟨.health, next⟩ ∧
      HealthCourse t.settings i next (about i (past ++ new)) := by
  rw [about_append, h.settings_eq]
  rcases h.onward hc with ⟨hsame, hnone⟩ | ⟨next, hnext, honward⟩
  · refine ⟨stage, hsame, ?_⟩
    rwa [hnone, List.append_nil]
  · refine ⟨next, hnext, ?_⟩
    rw [honward.about_eq]
    generalize about i past = heard at hcourse
    cases honward with
    | misses hd | asksFixed hd | asksProvider hd => cases hd
    | resumes => cases hcourse
    | sends hstage hr =>
      obtain ⟨rfl, -, -⟩ | rfl := hstage
      · cases hcourse
        exact .sent (Option.some.inj hr)
      · cases hcourse
    | lacks hstage hr =>
      obtain ⟨rfl, -, -⟩ | rfl := hstage
      · cases hcourse
        exact .refused (Option.some.inj hr)
      · cases hcourse
    | hears reply ho =>
      cases hcourse with
      | sent hr =>
        obtain rfl := Option.some.inj ho
        exact .answered hr reply

end Services

end VaultTokens
