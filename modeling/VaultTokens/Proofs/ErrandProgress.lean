import VaultTokens.Proofs.AttendedCalls
import VaultTokens.Services.Session

/-!
# Errands get on

No errand is stuck: whatever has happened, it comes to its end if errands and calls go on taking
their steps and replies go on arriving, and it does not matter what the replies are. Nothing about
the errand has to be known for this but that it is in a stage of its own kind (`Suited`) and that
its call, if it waits for one, is not given up (`Attended`); and of the providers that those who
stand in line are in phases in which one stands in line (`Ordered`).

## Main results

* `suited_run`, `ordered_run` — errands and calls are in stages and phases of their own kind
* `Attended.exists_answer` — a call that an errand waits for comes to its answer
* `Attended.exists_end` — every errand comes to its end
-/

namespace VaultTokens

namespace Errand

variable {errand : Errand} {stage : Stage}

/-- Whether a stage is of the kind of an errand: it has a request where it will send one, and it
knows what to make of the reply where it waits for one. -/
def Suits (errand : Errand) : Stage → Prop
  | .sending held => ∀ s, (errand.request? s held).isSome = true
  | .exchanging r => ∀ reply, (errand.conclude? r reply).isSome = true
  | _ => True

theorem suits_answered {answer : Authenticator.Answer} (h : errand.answered? answer = some stage) :
    errand.Suits stage ∧ stage.stepsLeft < 3 := by
  cases answer with
  | issued result =>
    cases errand with
    | login =>
      obtain rfl := Option.some.inj h
      exact ⟨trivial, by simp [Stage.stepsLeft]⟩
    | _ => cases h
  | token result =>
    cases result with
    | error f =>
      obtain rfl := Option.some.inj h
      exact ⟨trivial, by simp [Stage.stepsLeft]⟩
    | ok held =>
      cases errand with
      | secret op =>
        obtain rfl := Option.some.inj h
        exact ⟨fun s => rfl, by simp [Stage.stepsLeft]⟩
      | token name =>
        obtain rfl := Option.some.inj h
        exact ⟨trivial, by simp [Stage.stepsLeft]⟩
      | _ => cases h

/-- Who has sent a request knows what to make of the reply. -/
theorem suits_exchanging {s : VaultSettings} {held : String} {r : Request}
    (h : errand.request? s held = some (.ok r)) : errand.Suits (.exchanging r) := by
  intro reply
  cases errand with
  | health | secret | kubernetesLogin => rfl
  | login | token => cases h

/-- Who asks no strategy has a request. -/
theorem isSome_request?_of_demand? {method held : String} (h : errand.demand? method = none)
    (s : VaultSettings) : (errand.request? s held).isSome = true := by
  cases errand with
  | health | kubernetesLogin => rfl
  | secret | login | token => cases h

/-- An errand goes on with an answer to what it demanded. -/
theorem isSome_answered? {method name : String} {demand : Authenticator.Demand}
    {answer : Authenticator.Answer} (h : errand.demand? method = some (name, demand))
    (hanswer : demand.admits (.finished answer) = true) :
    (errand.answered? answer).isSome = true := by
  cases errand with
  | health | kubernetesLogin => cases h
  | login =>
    cases h
    cases answer with
    | issued result => rfl
    | token result => cases hanswer
  | secret | token =>
    cases h
    cases answer with
    | issued result => cases hanswer
    | token result => cases result <;> rfl

end Errand

namespace Services

variable {s t : Services} {env : Surroundings} {e : Event} {new : List Notice} {i : Nat}
  {errand : Errand} {stage : Errand.Stage}

/-! ### Stages -/

/-- Errands are in stages of their own kind. -/
def Suited (s : Services) : Prop :=
  ∀ (i : Nat) (task : Task), s.tasks[i]? = some task → task.errand.Suits task.stage

theorem Suited.step (h : Suited s) (env : Surroundings) (e : Event) : Suited (s.step env e).1 := by
  rintro i ⟨errand, stage⟩ ht
  have hchange := change_step env s e
  generalize (s.step env e).1 = t, (s.step env e).2 = new at ht hchange
  rcases hchange.task_cases ht with ⟨old, hold⟩ | ⟨-, hbegun⟩
  · rcases hchange.onward hold with ⟨hsame, -⟩ | ⟨next, hnext, honward⟩
    · cases hsame.symm.trans ht
      exact h i _ hold
    · obtain rfl : next = stage := congrArg Task.stage (Option.some.inj (hnext.symm.trans ht))
      dsimp only at honward
      cases honward with
      | misses | asksProvider | lacks | hears => trivial
      | asksFixed _ _ hs => exact (Errand.suits_answered hs).1
      | resumes _ hs => exact (Errand.suits_answered hs).1
      | sends _ hr => exact Errand.suits_exchanging hr
  · obtain rfl : stage = .begun := hbegun
    trivial

/-- Errands are in stages of their own kind. -/
theorem suited_run (h : Suited s) (events : List (Surroundings × Event)) :
    Suited (s.run events).1 :=
  run_preserves (fun _ env e h => h.step env e) h events

/-! ### The calls of the providers -/

/-- The calls to every provider are in line where they should be, and in phases of their own kind.
-/
def Ordered (s : Services) : Prop :=
  ∀ p g, s.provider? p = some g → g.strategy.Orderly ∧ g.strategy.Suited

theorem Ordered.step (h : Ordered s) (env : Surroundings) (e : Event) :
    Ordered (s.step env e).1 := by
  intro p g hg
  obtain ⟨own, htraces⟩ := (change_step env s e).traces p
  obtain ⟨old, hold, rfl⟩ := Option.map_eq_some_iff.mp (htraces.provider.symm.trans hg)
  obtain ⟨horderly, hsuited⟩ := h p old hold
  refine ⟨Authenticator.orderly_run horderly old.method own, ?_⟩
  refine Authenticator.run_induction (fun a _ => a.Suited) ?_ hsuited
  rintro env e - a b past new hchange h
  exact h.step hchange

/-- The calls to every provider stay in order. -/
theorem ordered_run (h : Ordered s) (events : List (Surroundings × Event)) :
    Ordered (s.run events).1 :=
  run_preserves (fun _ env e h => h.step env e) h events

/-! ### Steps and replies -/

/-- An event is a step of an errand or of a call, or the arrival of the reply that a network sends.
-/
def GoesOn (network : Network) (s : Services) : Event → Prop
  | .proceed _ | .advance .. => True
  | .reply i reply => ∃ errand r, s.tasks[i]? = some ⟨errand, .exchanging r⟩ ∧ reply = network r
  | .deliver p call reply =>
    ∃ g r, s.provider? p = some g ∧ g.strategy.pending? call = some r ∧ reply = network r
  | _ => False

/-- Errands and calls go on in some surroundings, over a network: they take their steps and get
their replies. -/
def GoOn (network : Network) (env : Surroundings) (s : Services) :
    List (Surroundings × Event) → Prop
  | [] => True
  | (env', e) :: rest => env' = env ∧ s.GoesOn network e ∧ GoOn network env (s.step env e).1 rest

theorem GoOn.append {network : Network} {first second : List (Surroundings × Event)}
    (h : GoOn network env s first) (h' : GoOn network env (s.run first).1 second) :
    GoOn network env s (first ++ second) := by
  induction first generalizing s with
  | nil => exact h'
  | cons x rest ih =>
    obtain ⟨env', e⟩ := x
    obtain ⟨rfl, he, hrest⟩ := h
    exact ⟨rfl, he, ih hrest h'⟩

/-! ### A call comes to its answer -/

/-- A step or a reply that takes a call further uses up a step of its provider. -/
theorem stepsLeft_within_lt {g : Guarded} {own : Authenticator.Event} {p : Exchanger}
    (hg : s.provider? p = some g) (hmoved : g.strategy.isMovedBy own = true)
    (env : Surroundings) :
    (s.within env p own).1.provider? p = some (g.after [(env, own)]) ∧
      (g.after [(env, own)]).strategy.stepsLeft < g.strategy.stepsLeft := by
  constructor
  · rw [(traces_within env s p p own).provider, if_pos rfl, hg]
    rfl
  · have hle := (Authenticator.change_step g.method env g.strategy own).stepsLeft_le
    have hsize := Authenticator.size_calls_step g.method env g.strategy own
    have hbegin : own.isBegin = false := by
      cases own with
      | begin d => cases hmoved
      | _ => rfl
    rw [hmoved] at hle
    rw [hbegin] at hsize
    show (g.strategy.step g.method env own).1.stepsLeft < _
    simp only [if_true, Bool.false_eq_true, if_false] at hle hsize
    omega

/-- **A call that an errand waits for comes to its answer**, whatever the replies. -/
theorem Attended.exists_answer (h : Attended s) (hordered : Ordered s) (network : Network)
    (env : Surroundings) {p : Exchanger} {call : Nat}
    (hi : s.tasks[i]? = some ⟨errand, .asking p call⟩) :
    ∃ more, GoOn network env s more ∧ (s.run more).1.tasks = s.tasks ∧
      ∃ answer, (s.run more).1.answer? p call = some answer := by
  obtain ⟨g, -, -, -, hg, -⟩ := h.asked i errand p call hi
  -- on the steps that the calls to the provider have left
  induction hn : g.strategy.stepsLeft using Nat.strongRecOn generalizing s g with
  | _ n ih =>
  obtain ⟨g', name, demand, phase, hg', -, hc, hkept⟩ := h.asked i errand p call hi
  obtain rfl := Option.some.inj (hg.symm.trans hg')
  cases hover : phase.isOver with
  | true =>
    cases phase with
    | cancelled => exact absurd rfl hkept
    | finished answer =>
      refine ⟨[], trivial, rfl, answer, ?_⟩
      rw [run, answer?, hg, Option.bind_some]
      exact Authenticator.answer?_eq_some.mpr ⟨demand, hc⟩
    | _ => cases hover
  | false =>
    -- one call to the provider can be moved
    obtain ⟨e, own, he, hstep, hmoved⟩ : ∃ (e : Event) (own : Authenticator.Event),
        s.GoesOn network e ∧ s.step env e = s.within env p own ∧
          g.strategy.isMovedBy own = true := by
      obtain ⟨j, hready | hpending⟩ := (hordered p g hg).1.exists_turn hc hover
      · exact ⟨.advance p j, .advance j, trivial, rfl, hready⟩
      · obtain ⟨r, hr⟩ := Option.isSome_iff_exists.mp hpending
        exact ⟨.deliver p j (network r), .reply j (network r), ⟨g, r, hg, hr, rfl⟩, rfl, hpending⟩
    obtain ⟨hnext, hlt⟩ := stepsLeft_within_lt hg hmoved env
    rw [← hstep] at hnext
    have htasks : (s.step env e).1.tasks = s.tasks := by
      rw [hstep]
      exact (scheduled_within env s p own).tasks
    have hi' : (s.step env e).1.tasks[i]? = some ⟨errand, .asking p call⟩ := by
      rw [htasks]
      exact hi
    obtain ⟨more, hmore, hsame, answer, hanswer⟩ :=
      ih _ (hn ▸ hlt) (h.step env e) (hordered.step env e) hi' _ hnext rfl
    exact ⟨(env, e) :: more, ⟨rfl, he, hmore⟩, hsame.trans htasks, answer, hanswer⟩

/-! ### An errand comes to its end -/

theorem tasks_dispatch_of_request? {held : String} (hi : s.tasks[i]? = some ⟨errand, stage⟩)
    (hr : (errand.request? s.settings held).isSome = true) :
    ∃ next, (s.dispatch i errand held).1.tasks[i]? = some ⟨errand, next⟩ ∧ next.stepsLeft < 2 := by
  obtain ⟨result, hresult⟩ := Option.isSome_iff_exists.mp hr
  rw [dispatch, hresult]
  cases result with
  | ok r => exact ⟨_, tasks_enter_self hi _, Nat.lt_succ_self 1⟩
  | error f => exact ⟨_, tasks_enter_self hi _, Nat.zero_lt_succ 1⟩

theorem tasks_resume_of_answered? {answer : Authenticator.Answer}
    (hi : s.tasks[i]? = some ⟨errand, stage⟩) (ha : (errand.answered? answer).isSome = true) :
    ∃ next, (s.resume i errand answer).1.tasks[i]? = some ⟨errand, next⟩ ∧
      next.stepsLeft < 3 := by
  obtain ⟨next, hnext⟩ := Option.isSome_iff_exists.mp ha
  rw [resume_eq, hnext]
  exact ⟨next, tasks_enter_self hi _, (Errand.suits_answered hnext).2⟩

theorem tasks_consult_of_demand? {name : String} {demand : Authenticator.Demand}
    (hi : s.tasks[i]? = some ⟨errand, stage⟩)
    (hd : errand.demand? s.settings.method = some (name, demand)) (env : Surroundings) :
    ∃ next, (s.consult env i errand name demand).1.tasks[i]? = some ⟨errand, next⟩ ∧
      next.stepsLeft < 4 := by
  rw [consult]
  split
  · exact ⟨_, tasks_enter_self hi _, Nat.zero_lt_succ 3⟩
  · rename_i token hr
    obtain ⟨next, hs⟩ := answered?_fixedAnswer hd token
    obtain ⟨next, hnext, hlt⟩ := tasks_resume_of_answered? hi (Option.isSome_iff_exists.mpr ⟨_, hs⟩)
    exact ⟨next, hnext, Nat.lt_succ_of_lt hlt⟩
  · split
    · exact ⟨_, tasks_enter_self hi _, Nat.zero_lt_succ 3⟩
    · rename_i p hr _ call hcall
      have hwithin : (s.within env p (.begin demand)).1.tasks[i]? = some ⟨errand, stage⟩ :=
        (scheduled_within env s p _).tasks ▸ hi
      exact ⟨_, tasks_enter_self hwithin _, Nat.lt_succ_self 3⟩

/-- An errand that has begun asks a strategy or sends its request. -/
theorem tasks_proceed_of_begun (hi : s.tasks[i]? = some ⟨errand, .begun⟩) (env : Surroundings) :
    ∃ next, (s.step env (.proceed i)).1.tasks[i]? = some ⟨errand, next⟩ ∧
      next.stepsLeft < Errand.Stage.begun.stepsLeft := by
  show ∃ next, (s.proceed env i).1.tasks[i]? = _ ∧ _
  rw [Services.proceed, hi]
  cases hd : errand.demand? s.settings.method with
  | none =>
    simp only [hd]
    obtain ⟨next, hnext, hlt⟩ := tasks_dispatch_of_request? hi
      (Errand.isSome_request?_of_demand? hd s.settings)
    exact ⟨next, hnext, Nat.lt_trans hlt (by decide)⟩
  | some asked =>
    obtain ⟨name, demand⟩ := asked
    simp only [hd]
    obtain ⟨next, hnext, hlt⟩ := tasks_consult_of_demand? hi hd env
    exact ⟨next, hnext, Nat.lt_trans hlt (by decide)⟩

/-- An errand goes on with the answer that it waited for. -/
theorem Attended.tasks_proceed_of_answer? (h : Attended s) (hordered : Ordered s)
    (env : Surroundings) {p : Exchanger} {call : Nat} {answer : Authenticator.Answer}
    (hi : s.tasks[i]? = some ⟨errand, .asking p call⟩) (ha : s.answer? p call = some answer) :
    ∃ next, (s.step env (.proceed i)).1.tasks[i]? = some ⟨errand, next⟩ ∧ next.stepsLeft < 3 := by
  obtain ⟨g, name, demand, phase, hg, hd, hc, -⟩ := h.asked i errand p call hi
  have hfinished := ha
  rw [answer?, hg, Option.bind_some] at hfinished
  obtain ⟨d, hfinished⟩ := Authenticator.answer?_eq_some.mp hfinished
  obtain ⟨rfl, -⟩ := Authenticator.Call.mk.inj (Option.some.inj (hfinished.symm.trans hc))
  obtain ⟨next, hnext, hlt⟩ := tasks_resume_of_answered? hi
    (Errand.isSome_answered? hd ((hordered p g hg).2 call _ hfinished))
  show ∃ next, (s.proceed env i).1.tasks[i]? = _ ∧ _
  rw [Services.proceed, hi]
  simp only [ha]
  exact ⟨next, hnext, hlt⟩

/-- **An errand that is not over comes closer to its end**, whatever the replies. -/
theorem Attended.exists_next (h : Attended s) (hsuited : Suited s) (hordered : Ordered s)
    (network : Network) (env : Surroundings) (hi : s.tasks[i]? = some ⟨errand, stage⟩)
    (hopen : 0 < stage.stepsLeft) :
    ∃ more, GoOn network env s more ∧ ∃ next, (s.run more).1.tasks[i]? = some ⟨errand, next⟩ ∧
      next.stepsLeft < stage.stepsLeft := by
  -- one step or one reply is enough, unless the errand waits for a call
  have one : ∀ (e : Event) (next : Errand.Stage), s.GoesOn network e →
      (s.step env e).1.tasks[i]? = some ⟨errand, next⟩ → next.stepsLeft < stage.stepsLeft →
      ∃ more, GoOn network env s more ∧ ∃ next, (s.run more).1.tasks[i]? = some ⟨errand, next⟩ ∧
        next.stepsLeft < stage.stepsLeft :=
    fun e next he hnext hlt => ⟨[(env, e)], ⟨rfl, he, trivial⟩, next, hnext, hlt⟩
  have hproceed : s.step env (.proceed i) = s.proceed env i := rfl
  have hsuits := hsuited i _ hi
  cases stage with
  | finished outcome => cases hopen
  | begun =>
    obtain ⟨next, hnext, hlt⟩ := tasks_proceed_of_begun hi env
    exact one (.proceed i) next trivial hnext hlt
  | sending token =>
    obtain ⟨next, hnext, hlt⟩ := tasks_dispatch_of_request? hi (hsuits s.settings)
    refine one (.proceed i) next trivial ?_ hlt
    rw [hproceed, Services.proceed, hi]
    exact hnext
  | exchanging r =>
    obtain ⟨outcome, ho⟩ := Option.isSome_iff_exists.mp (hsuits (network r))
    refine one (.reply i (network r)) (.finished outcome) ⟨errand, r, hi, rfl⟩ ?_
      (Nat.zero_lt_succ 0)
    show (s.receive i (network r)).1.tasks[i]? = _
    rw [receive, hi]
    simp only [ho]
    exact tasks_enter_self hi _
  | asking p call =>
    obtain ⟨more, hmore, hsame, answer, ha⟩ := h.exists_answer hordered network env hi
    rw [← hsame] at hi
    obtain ⟨next, hnext, hlt⟩ :=
      (attended_run h more).tasks_proceed_of_answer? (ordered_run hordered more) env hi ha
    have hlast : GoOn network env (s.run more).1 [(env, .proceed i)] := ⟨rfl, trivial, trivial⟩
    refine ⟨more ++ [(env, .proceed i)], hmore.append hlast, next, ?_, hlt⟩
    rw [run_append]
    exact hnext

/-- **Every errand comes to its end**, in whatever surroundings it goes on and whatever the replies
are. -/
theorem Attended.exists_end (h : Attended s) (hsuited : Suited s) (hordered : Ordered s)
    (network : Network) (env : Surroundings) (hi : s.tasks[i]? = some ⟨errand, stage⟩) :
    ∃ more, GoOn network env s more ∧
      ∃ outcome, (s.run more).1.tasks[i]? = some ⟨errand, .finished outcome⟩ := by
  induction hn : stage.stepsLeft using Nat.strongRecOn generalizing s stage with
  | _ n ih =>
  cases stage with
  | finished outcome => exact ⟨[], trivial, outcome, hi⟩
  | _ =>
    obtain ⟨first, hfirst, next, hnext, hlt⟩ := h.exists_next hsuited hordered network env hi
      (by simp [Errand.Stage.stepsLeft])
    obtain ⟨second, hsecond, outcome, hend⟩ := ih _ (hn ▸ hlt) (attended_run h first)
      (suited_run hsuited first) (ordered_run hordered first) hnext rfl
    refine ⟨first ++ second, hfirst.append hsecond, outcome, ?_⟩
    rw [run_append]
    exact hend

end Services

end VaultTokens
