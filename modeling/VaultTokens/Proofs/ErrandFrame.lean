import VaultTokens.Proofs.ServicesChange

/-!
# What errands leave behind

An errand that has asked its strategy goes on by itself: it sends its request and hears the reply,
and nothing that comes of this is told to the strategy. So an operation on a secret leaves behind
what a bare question for the token would have left, whatever the server has replied to it.

Services are compared here up to what they do for their errands: `bare` turns every operation on a
secret into such a question and forgets how errands go on behind the answer. It is kept up by every
step (`bare_step`), and thereby by every run.

## Main results

* `bare_run` — the replies to errands make no difference, nor does it make one what is done with the
  tokens
* `provider?_bareEvents` — what that says of a provider
-/

namespace VaultTokens

namespace Services

variable {s t : Services} {env : Surroundings} {e : Event} {i : Nat}

/-! ### Bare errands -/

/-- An errand that only asks for what it asks of its strategy; `method` is the strategy for
operations on secrets. -/
def bareErrand (method : String) : Errand → Errand
  | .secret _ => .token method
  | errand => errand

/-- An errand's stage as far as its strategy is concerned: behind the answer they are all one. -/
def bareStage : Errand.Stage → Errand.Stage
  | .begun => .begun
  | .asking p call => .asking p call
  | .sending _ | .exchanging _ | .finished _ => .finished (.checked (.ok ()))

/-- The services as far as the strategies are concerned. -/
def bare (s : Services) : Services :=
  { s with tasks := s.tasks.map fun task =>
      ⟨bareErrand s.settings.method task.errand, bareStage task.stage⟩ }

/-- An event as far as the strategies are concerned: a reply to an errand is none. -/
def bareEvent? (method : String) : Event → Option Event
  | .ask errand => some (.ask (bareErrand method errand))
  | .reply .. => none
  | e => some e

/-- The events of a run as far as the strategies are concerned: every operation on a secret is a
bare question for the token, and no errand is replied to. -/
def bareEvents (method : String) (events : List (Surroundings × Event)) :
    List (Surroundings × Event) :=
  events.filterMap fun x => (bareEvent? method x.2).map (x.1, ·)

@[simp]
theorem bareErrand_bareErrand (method : String) (errand : Errand) :
    bareErrand method (bareErrand method errand) = bareErrand method errand := by
  cases errand <;> rfl

@[simp]
theorem bareStage_begun : bareStage .begun = .begun := rfl

@[simp]
theorem bareStage_bareStage (stage : Errand.Stage) :
    bareStage (bareStage stage) = bareStage stage := by
  cases stage <;> rfl

theorem demand?_bareErrand (method : String) (errand : Errand) :
    (bareErrand method errand).demand? method = errand.demand? method := by
  cases errand <;> rfl

theorem answered?_bareErrand (method : String) (errand : Errand)
    (answer : Authenticator.Answer) :
    ((bareErrand method errand).answered? answer).map bareStage
      = (errand.answered? answer).map bareStage := by
  cases errand with
  | secret =>
    cases answer with
    | issued result => rfl
    | token result => cases result <;> rfl
  | _ => rfl

@[simp]
theorem bare_bare (s : Services) : s.bare.bare = s.bare := by
  simp [bare, Function.comp_def]

@[simp]
theorem provider?_bare (s : Services) (p : Exchanger) : s.bare.provider? p = s.provider? p := by
  rcases p with (_ | _) | _ <;> rfl

theorem getElem?_tasks_bare (s : Services) (i : Nat) :
    s.bare.tasks[i]? = s.tasks[i]?.map fun task =>
      ⟨bareErrand s.settings.method task.errand, bareStage task.stage⟩ := by
  simp [bare]

@[simp]
theorem bare_enter (s : Services) (i : Nat) (stage : Errand.Stage) :
    (s.enter i stage).bare = s.bare.enter i (bareStage stage) := by
  have htasks : (s.enter i stage).bare.tasks = (s.bare.enter i (bareStage stage)).tasks := by
    refine Array.ext_getElem? fun j => ?_
    rw [getElem?_tasks_bare, enter, enter, Array.getElem?_modify, Array.getElem?_modify,
      getElem?_tasks_bare]
    by_cases hj : i = j
    · subst hj
      rw [if_pos rfl, if_pos rfl]
      cases s.tasks[i]? <;> rfl
    · rw [if_neg hj, if_neg hj]
  simp only [bare, enter] at htasks ⊢
  rw [htasks]

theorem enter_self {errand : Errand} {stage : Errand.Stage}
    (hc : s.tasks[i]? = some ⟨errand, stage⟩) : s.enter i stage = s := by
  have htasks : (s.enter i stage).tasks = s.tasks := by
    refine Array.ext_getElem? fun j => ?_
    by_cases hj : i = j
    · subst hj
      rw [tasks_enter_self hc, hc]
    · exact tasks_enter_of_ne hj stage
  exact congrArg (fun tasks => { s with tasks }) htasks

/-- How an errand goes on behind the answer is not seen. -/
theorem bare_enter_eq {errand : Errand} {stage next : Errand.Stage}
    (hc : s.tasks[i]? = some ⟨errand, stage⟩) (hnext : bareStage next = bareStage stage) :
    (s.enter i next).bare = s.bare := by
  have hbare : s.bare.tasks[i]? = some ⟨bareErrand s.settings.method errand, bareStage stage⟩ := by
    rw [getElem?_tasks_bare, hc]
    rfl
  rw [bare_enter, hnext]
  exact enter_self hbare

/-! ### Providers and schedulers -/

theorem bare_setProvider (s : Services) (p : Exchanger) (g : Guarded) :
    (s.setProvider p g).bare = s.bare.setProvider p g := by
  rcases p with (_ | _) | _ <;> rfl

theorem bare_within (env : Surroundings) (s : Services) (p : Exchanger)
    (e : Authenticator.Event) : (s.within env p e).1.bare = (s.bare.within env p e).1 := by
  rw [within, within, provider?_bare]
  cases s.provider? p with
  | none => rfl
  | some g => exact bare_setProvider ..

theorem bare_setScheduler (s : Services) (k : Nat) (scheduler : Renewal.Scheduler Nat) :
    (s.setScheduler k scheduler).bare = s.bare.setScheduler k scheduler := rfl

theorem bare_fire (env : Surroundings) (s : Services) (k : Nat) :
    (s.fire env k).1.bare = (s.bare.fire env k).1 := by
  rw [fire, fire, show s.bare.schedulers = s.schedulers from rfl]
  cases s.schedulers[k]? with
  | none => rfl
  | some entry =>
    obtain ⟨p, scheduler⟩ := entry
    simp only [nextCall?, provider?_bare]
    split
    · simp only [bare_setScheduler, bare_within]
    · rfl

theorem bare_settle (env : Surroundings) (s : Services) (k : Nat) :
    (s.settle env k).1.bare = (s.bare.settle env k).1 := by
  rw [settle, settle, show s.bare.schedulers = s.schedulers from rfl]
  cases s.schedulers[k]? with
  | none => rfl
  | some entry =>
    obtain ⟨p, scheduler⟩ := entry
    simp only [settled?, answer?, provider?_bare]
    split <;> rfl

theorem bare_command (env : Surroundings) (s : Services) (k : Nat)
    (f : Renewal.Scheduler Nat → Renewal.Scheduler Nat × Option Nat) :
    (s.command env k f).bare = s.bare.command env k f := by
  rw [command, command, show s.bare.schedulers = s.schedulers from rfl]
  cases s.schedulers[k]? with
  | none => rfl
  | some entry =>
    obtain ⟨p, scheduler⟩ := entry
    simp only
    split
    · rfl
    · rw [bare_setScheduler, bare_within]

theorem bare_shutdown (env : Surroundings) (s : Services) :
    (s.shutdown env).bare = s.bare.shutdown env := by
  rw [shutdown, shutdown, show s.bare.schedulers = s.schedulers from rfl]
  generalize List.range s.schedulers.length = ks
  induction ks generalizing s with
  | nil => rfl
  | cons k ks ih => rw [List.foldl_cons, List.foldl_cons, ih, stop, bare_command, stop]

/-! ### Errands -/

theorem bare_resume (s : Services) (i : Nat) (errand : Errand) (answer : Authenticator.Answer) :
    (s.resume i errand answer).1.bare
      = (s.bare.resume i (bareErrand s.settings.method errand) answer).1.bare := by
  have hstage := answered?_bareErrand s.settings.method errand answer
  rw [resume_eq, resume_eq]
  cases hs : errand.answered? answer with
  | none =>
    rw [hs, Option.map_none, Option.map_eq_none_iff] at hstage
    rw [hstage]
    simp
  | some stage =>
    rw [hs, Option.map_some, Option.map_eq_some_iff] at hstage
    obtain ⟨stage', hs', heq⟩ := hstage
    rw [hs']
    simp [heq]

theorem bare_consult (env : Surroundings) (s : Services) (i : Nat) (errand : Errand)
    (name : String) (demand : Authenticator.Demand) :
    (s.consult env i errand name demand).1.bare
      = (s.bare.consult env i (bareErrand s.settings.method errand) name demand).1.bare := by
  rw [consult, consult, show s.bare.registry = s.registry from rfl]
  cases s.registry.resolve name with
  | error f => simp [finish, bareStage]
  | ok strategy =>
    cases strategy with
    | fixed token => exact bare_resume ..
    | provided p =>
      simp only [nextCall?, provider?_bare]
      split
      · simp [finish, bareStage]
      · simp only [bare_enter, bare_within, bare_bare, bareStage]

/-- An errand that asks no strategy sends its request; nobody else notices. -/
theorem bare_dispatch (s : Services) (i : Nat) {errand : Errand}
    (hd : errand.demand? s.settings.method = none) :
    (s.dispatch i errand "").1.bare
      = (s.bare.dispatch i (bareErrand s.settings.method errand) "").1.bare := by
  have hbare : bareErrand s.settings.method errand = errand := by
    cases errand <;> first | rfl | cases hd
  rw [hbare, dispatch, dispatch, show s.bare.settings = s.settings from rfl]
  split <;> simp [finish, bareStage]

/-- What an errand does with its token is not seen. -/
theorem bare_dispatch_sending {errand : Errand} {token : String}
    (hc : s.tasks[i]? = some ⟨errand, .sending token⟩) :
    (s.dispatch i errand token).1.bare = s.bare := by
  rw [dispatch]
  split
  · rfl
  · exact bare_enter_eq hc rfl
  · exact bare_enter_eq hc rfl

theorem bare_proceed (env : Surroundings) (s : Services) (i : Nat) :
    (s.proceed env i).1.bare = (s.bare.proceed env i).1.bare := by
  rw [proceed, proceed, getElem?_tasks_bare]
  cases hc : s.tasks[i]? with
  | none => simp
  | some task =>
    obtain ⟨errand, stage⟩ := task
    cases stage with
    | begun =>
      simp only [Option.map_some, bareStage, show s.bare.settings = s.settings from rfl,
        demand?_bareErrand]
      split
      · exact bare_consult ..
      · rename_i hd
        exact bare_dispatch s i hd
    | asking p call =>
      simp only [Option.map_some, bareStage, answer?, provider?_bare]
      split
      · simp
      · exact bare_resume ..
    | sending token =>
      simp only [Option.map_some, bareStage, bare_bare]
      exact bare_dispatch_sending hc
    | exchanging | finished => simp [bareStage]

/-- **No strategy notices the reply to an errand.** -/
theorem bare_receive (s : Services) (i : Nat) (reply : Reply) :
    (s.receive i reply).1.bare = s.bare := by
  rw [receive]
  split
  · rename_i errand r hc
    split
    · rfl
    · exact bare_enter_eq hc rfl
  · rfl

/-! ### Runs -/

theorem settings_bare (s : Services) : s.bare.settings = s.settings := rfl

/-- **To the strategies every event is what is left of it without what errands do behind the
answer.** -/
theorem bare_step (env : Surroundings) (s : Services) (e : Event) :
    (s.step env e).1.bare
      = (bareEvent? s.settings.method e).elim s.bare fun e => (s.bare.step env e).1.bare := by
  cases e with
  | ask errand => simp [step, bareEvent?, bare, Function.comp_def]
  | proceed i => exact bare_proceed env s i
  | reply i reply => exact bare_receive s i reply
  | register => simp [step, bareEvent?, bare, Function.comp_def]
  | advance | deliver => simp [step, bareEvent?, bare_within]
  | fire => simp [step, bareEvent?, bare_fire]
  | settle => simp [step, bareEvent?, bare_settle]
  | start | startFrom => simp [step, bareEvent?, bare_command]
  | stop => simp [step, bareEvent?, stop, bare_command]
  | shutdown => simp [step, bareEvent?, bare_shutdown]

theorem bareEvent?_bareEvent? {method : String} {e e' : Event}
    (h : bareEvent? method e = some e') : bareEvent? method e' = some e' := by
  cases e with
  | reply => cases h
  | ask errand =>
    obtain rfl := Option.some.inj h
    simp [bareEvent?]
  | _ =>
    obtain rfl := Option.some.inj h
    rfl

/-- **What errands do behind the answer makes no difference to the strategies.** -/
theorem bare_run (s : Services) (events : List (Surroundings × Event)) :
    (s.run events).1.bare = (s.run (bareEvents s.settings.method events)).1.bare := by
  have key : ∀ s t : Services, s.bare = t.bare →
      (s.run events).1.bare = (t.run (bareEvents s.settings.method events)).1.bare := by
    induction events with
    | nil => exact fun s t h => h
    | cons x rest ih =>
      obtain ⟨env, e⟩ := x
      intro s t h
      have hsettings : (s.step env e).1.settings = s.settings :=
        (change_step env s e).settings_eq
      have htail := ih (s.step env e).1
      rw [hsettings] at htail
      cases he : bareEvent? s.settings.method e with
      | none =>
        rw [bareEvents, List.filterMap_cons_none (by rw [he]; rfl)]
        refine htail t ?_
        rw [bare_step, he]
        exact h
      | some e' =>
        rw [bareEvents, List.filterMap_cons_some (by rw [he]; rfl)]
        refine htail (t.step env e').1 ?_
        have hmethod : t.settings.method = s.settings.method := by
          rw [← settings_bare t, ← h]
          rfl
        rw [bare_step, bare_step, hmethod, he, bareEvent?_bareEvent? he, h]
  exact key s s rfl

/-- **An operation on a secret leaves every provider as a bare question for the token would have
left it**, whatever the server has replied. -/
theorem provider?_bareEvents (s : Services) (events : List (Surroundings × Event))
    (p : Exchanger) : (s.run events).1.provider? p
      = (s.run (bareEvents s.settings.method events)).1.provider? p := by
  rw [← provider?_bare, bare_run, provider?_bare]

end Services

end VaultTokens
