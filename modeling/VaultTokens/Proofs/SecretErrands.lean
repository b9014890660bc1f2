import Mathlib.Data.List.Induction
import VaultTokens.Services.Session
import VaultTokens.Proofs.ErrandFrame
import VaultTokens.Proofs.ScheduledCalls

/-!
# Operations on secrets

The secret client keeps no token. Every operation looks its strategy up when it takes its first
step, asks it once, and sends one request with what it was answered. `Course` lists the stages of
this together with everything that is let known on the way, so that what an operation has done can
be read off the stage that it has come to. Which strategy it is depends on the registrations before
the first step alone (`inForce`), and the answer is the one that the strategy has given to the one
call that the operation began.

## Main results

* `strategy?_run` — operations use the strategy that was registered last under the configured name
* `Change.course` — a step takes an operation along its course
* `secret_errands` — what operations on secrets and checks of the server's health do and leave alone
-/

namespace VaultTokens

namespace Secrets.Operation

/-- Whether an operation can be sent with a token: the token can stand in a header, and the address
of the secret can be asked. -/
def CanSend (settings : VaultSettings) (op : Operation) (token : String) : Prop :=
  Http.isHeaderValue token = true ∧ Http.isTarget (address settings op.entry op.key) = true

theorem prepare_cases (settings : VaultSettings) (op : Operation) (token : String) :
    op.CanSend settings token ∧ op.prepare settings token = .ok (op.request settings token) ∨
      ¬op.CanSend settings token ∧ ∃ reason, op.prepare settings token
        = .error (op.unreached reason) := by
  rw [prepare]
  cases h : Http.ready (op.request settings token) with
  | ok r =>
    obtain ⟨hr, htoken, htarget⟩ := Http.ready_eq_ok_iff.mp h
    exact .inl ⟨⟨htoken, htarget⟩, by rw [hr]⟩
  | error reason =>
    refine .inr ⟨?_, reason, rfl⟩
    rintro ⟨htoken, htarget⟩
    have hready : Http.ready (op.request settings token) = .ok (op.request settings token) :=
      Http.ready_eq_ok_iff.mpr ⟨rfl, htoken, htarget⟩
    cases hready.symm.trans h

end Secrets.Operation

namespace Services

variable {s t u : Services} {env : Surroundings} {e : Event} {past new : List Notice}
  {i : Nat} {p : Exchanger} {op : Secrets.Operation}

/-! ### What a name leads to -/

/-- The strategy that an event registers under a name, if it does. -/
def Event.registered? (name : String) : Event → Option Strategy
  | .register other strategy => if other = name then some strategy else none
  | _ => none

/-- The strategy that was registered last under a name. -/
def lastRegistered (name : String) (events : List (Surroundings × Event)) : Option Strategy :=
  (events.filterMap fun x => x.2.registered? name).getLast?

theorem find?_step (s : Services) (env : Surroundings) (e : Event) (name : String) :
    (s.step env e).1.registry.find? name
      = (e.registered? name).or (s.registry.find? name) := by
  by_cases he : ∃ other strategy, e = .register other strategy
  · obtain ⟨other, strategy, rfl⟩ := he
    show (s.registry.register other strategy).find? name = _
    by_cases hname : other = name
    · subst hname
      simp [Event.registered?]
    · rw [Registry.find?_register_of_ne _ _ (Ne.symm hname)]
      simp [Event.registered?, hname]
  · have hnone : e.registered? name = none := by
      cases e with
      | register other strategy => exact absurd ⟨other, strategy, rfl⟩ he
      | _ => rfl
    rw [(change_step env s e).registry_eq fun other strategy h => he ⟨other, strategy, h⟩, hnone]
    rfl

/-- **A name leads to the strategy that was registered last under it**, and before that to the one
it led to. -/
theorem find?_run (s : Services) (events : List (Surroundings × Event)) (name : String) :
    (s.run events).1.registry.find? name
      = (lastRegistered name events).or (s.registry.find? name) := by
  induction events generalizing s with
  | nil => rfl
  | cons x rest ih =>
    obtain ⟨env, e⟩ := x
    rw [run_cons, ih, find?_step, ← Option.or_assoc]
    congr 1
    rw [lastRegistered, lastRegistered]
    cases hregistered : e.registered? name with
    | none => simp [hregistered]
    | some strategy =>
      simp only [List.filterMap_cons, hregistered, List.getLast?_cons]
      cases (rest.filterMap fun x => x.2.registered? name).getLast? <;> rfl

theorem settings_run (s : Services) (events : List (Surroundings × Event)) :
    (s.run events).1.settings = s.settings :=
  run_induction (fun t _ => t.settings = s.settings)
    (fun hchange h => hchange.settings_eq.trans h) rfl events

/-- A strategy if it is there; a fixed token always is. -/
def present? (method? : Exchanger → Option Method) (strategy : Strategy) : Bool :=
  match strategy with
  | .fixed _ => true
  | .provided p => (method? p).isSome

/-- The strategy that operations on secrets find. -/
def strategy? (s : Services) : Option Strategy :=
  (s.registry.find? s.settings.method).filter
    (present? fun p => (s.provider? p).map Guarded.method)

/-- The strategy that operations on secrets use after some events: the one that was registered last
under the configured name, or the fallback strategy if that is the name and none was. A provider
that is not there counts as none. -/
def Outfit.inForce (o : Outfit) (events : List (Surroundings × Event)) : Option Strategy :=
  let fallback := if o.settings.method = fallbackMethod then
    some (Strategy.fixed (o.settings.fallbackToken.getD "")) else none
  ((lastRegistered o.settings.method events).or fallback).filter (present? o.method?)

theorem settings_opened_run (o : Outfit) (events : List (Surroundings × Event)) :
    (o.opened.run events).1.settings = o.settings :=
  settings_run o.opened events

/-- **Operations on secrets find the strategy that was registered last under the configured
name.** -/
theorem strategy?_run (o : Outfit) (events : List (Surroundings × Event)) :
    (o.opened.run events).1.strategy? = o.inForce events := by
  have hmethods : (fun p => ((o.opened.run events).1.provider? p).map Guarded.method)
      = o.method? := by
    funext p
    obtain ⟨own, hprovider⟩ := o.exists_own events p
    rw [hprovider, Option.map_map]
    exact Option.map_id'
  have hfallback : o.opened.registry.find? o.settings.method
      = if o.settings.method = fallbackMethod then
          some (.fixed (o.settings.fallbackToken.getD "")) else none := by
    show (Registry.initial _).find? _ = _
    by_cases hmethod : o.settings.method = fallbackMethod
    · rw [hmethod, if_pos rfl, Registry.find?_initial]
    · simp [Registry.initial, Registry.find?, hmethod, Ne.symm hmethod]
  rw [strategy?, hmethods, settings_opened_run, find?_run, hfallback]
  rfl

/-! ### What has not begun to move -/

/-- Nothing has been let known of an errand that has not begun to move. -/
def Unheard (s : Services) (past : List Notice) : Prop :=
  ∀ i, (∀ task, s.tasks[i]? = some task → task.stage = .begun) → about i past = []

theorem Onward.ne_begun {errand : Errand} {stage next : Errand.Stage}
    (h : Onward s i errand e stage next new) : next ≠ .begun := by
  have answered : ∀ {answer}, errand.answered? answer = some next → next ≠ .begun := by
    rintro answer hs rfl
    cases answer with
    | issued result => cases errand <;> cases hs
    | token result =>
      cases result with
      | error f => cases hs
      | ok held => cases errand <;> cases hs
  cases h with
  | asksFixed hd hr hs => exact answered hs
  | resumes ha hs => exact answered hs
  | _ => exact nofun

theorem Unheard.step (h : Unheard s past) (hchange : Change env s e t new) :
    Unheard t (past ++ new) := by
  intro i hi
  rw [about_append]
  cases hs : s.tasks[i]? with
  | some old =>
    obtain ⟨errand, stage⟩ := old
    rcases hchange.onward hs with ⟨hsame, hnone⟩ | ⟨next, hnext, honward⟩
    · rw [hnone, List.append_nil]
      refine h i fun task htask => ?_
      cases hs.symm.trans htask
      exact hi _ hsame
    · exact absurd (hi _ hnext) honward.ne_begun
  | none =>
    have hpast : about i past = [] := h i fun task htask => by cases hs.symm.trans htask
    rw [hpast, hchange.about_of_none hs]
    rfl

theorem unheard_run (o : Outfit) (events : List (Surroundings × Event)) :
    Unheard (o.opened.run events).1 (o.opened.run events).2 :=
  run_induction Unheard (fun hchange h => h.step hchange) (fun _ _ => rfl) events

/-! ### The course of an operation -/

/-- What a strategy has answered, the fixed one at once and a provider to a call. -/
def answerOf? (s : Services) (call : Nat) : Strategy → Option Authenticator.Answer
  | .fixed token => some (.token (.ok token))
  | .provided p => s.answer? p call

/-- How an operation on a secret goes: how far it is and what has been let known about it, if it
uses this strategy and the strategy has given this answer. -/
inductive Course (settings : VaultSettings) (op : Secrets.Operation) (i : Nat)
    (strategy : Option Strategy) (call : Nat) (answer : Option Authenticator.Answer) :
    Errand.Stage → List Notice → Prop where
  /-- There is no strategy. -/
  | unknown (hs : strategy = none) :
    Course settings op i strategy call answer
      (.finished (.secret (.error (Registry.unknown settings.method))))
      [.finished i (.secret (.error (Registry.unknown settings.method)))]
  /-- The strategy has been asked and its answer has not been taken yet. -/
  | asking {p : Exchanger} (hs : strategy = some (.provided p)) :
    Course settings op i strategy call answer (.asking p call)
      [.asked i (.provided p) .token]
  /-- The strategy has answered with a token. -/
  | sending {asked : Strategy} {token : String} (hs : strategy = some asked)
    (ha : answer = some (.token (.ok token))) :
    Course settings op i strategy call answer (.sending token) [.asked i asked .token]
  /-- The strategy has no token. -/
  | failed {asked : Strategy} {f : Failure} (hs : strategy = some asked)
    (ha : answer = some (.token (.error f))) :
    Course settings op i strategy call answer (.finished (.secret (.error f)))
      [.asked i asked .token, .finished i (.secret (.error f))]
  /-- The strategy has a token, and the operation cannot be sent with it. -/
  | refused {asked : Strategy} {token reason : String} (hs : strategy = some asked)
    (ha : answer = some (.token (.ok token))) (hr : ¬op.CanSend settings token) :
    Course settings op i strategy call answer (.finished (.secret (.error (op.unreached reason))))
      [.asked i asked .token, .finished i (.secret (.error (op.unreached reason)))]
  /-- The operation has been sent with the token. -/
  | sent {asked : Strategy} {token : String} (hs : strategy = some asked)
    (ha : answer = some (.token (.ok token))) (hr : op.CanSend settings token) :
    Course settings op i strategy call answer (.exchanging (op.request settings token))
      [.asked i asked .token, .sent i (op.request settings token)]
  /-- The operation has been replied to. -/
  | answered {asked : Strategy} {token : String} (hs : strategy = some asked)
    (ha : answer = some (.token (.ok token))) (hr : op.CanSend settings token) (reply : Reply) :
    Course settings op i strategy call answer
      (.finished (.secret (op.conclude (op.request settings token).url reply)))
      [.asked i asked .token, .sent i (op.request settings token),
        .finished i (.secret (op.conclude (op.request settings token).url reply))]

variable {settings : VaultSettings} {strategy : Option Strategy} {call : Nat}
  {answer answer' : Option Authenticator.Answer} {stage next : Errand.Stage} {heard : List Notice}

/-- A course goes on as it was when the strategy answers. -/
theorem Course.mono (h : Course settings op i strategy call answer stage heard)
    (ha : ∀ a, answer = some a → answer' = some a) :
    Course settings op i strategy call answer' stage heard := by
  cases h with
  | unknown hs => exact .unknown hs
  | asking hs => exact .asking hs
  | sending hs h => exact .sending hs (ha _ h)
  | failed hs h => exact .failed hs (ha _ h)
  | refused hs h hr => exact .refused hs (ha _ h) hr
  | sent hs h hr => exact .sent hs (ha _ h) hr
  | answered hs h hr reply => exact .answered hs (ha _ h) hr reply

/-- An operation that has been sent was sent with what its strategy had answered. -/
theorem Course.answered_of_sent (h : Course settings op i strategy call answer stage heard)
    {r : Request} (hr : .sent i r ∈ heard) : ∃ a, answer = some a := by
  cases h with
  | sent hs ha | answered hs ha => exact ⟨_, ha⟩
  | _ => simp at hr

/-- An operation that waits for an answer waits for its call. -/
theorem Course.of_asking {p : Exchanger} {call' : Nat}
    (h : Course settings op i strategy call answer (.asking p call') heard) :
    strategy = some (.provided p) ∧ call' = call := by
  cases h with
  | asking hs => exact ⟨hs, rfl⟩

/-- An operation sets out: it looks up its strategy and asks it. -/
theorem Onward.course_of_begun (h : Onward s i (.secret op) e .begun next new) :
    e = .proceed i ∧ ∃ call, (∀ p, s.strategy? = some (.provided p) →
        s.nextCall? p = some call ∧ new = [.asked i (.provided p) .token]) ∧
      Course s.settings op i s.strategy? call (s.strategy?.bind (s.answerOf? call)) next new := by
  cases h with
  | misses hd hr =>
    obtain ⟨rfl, -⟩ := Prod.mk.inj (Option.some.inj hd)
    have hnone : s.strategy? = none := by
      rw [strategy?, Option.filter_eq_none_iff]
      intro strategy hs
      obtain ⟨p, rfl, hp⟩ := hr strategy hs
      simp [present?, hp]
    refine ⟨rfl, 0, fun p hp => (by cases hnone.symm.trans hp), ?_⟩
    rw [hnone]
    exact .unknown rfl
  | asksFixed hd hr hs =>
    rename_i token
    obtain ⟨rfl, rfl⟩ := Prod.mk.inj (Option.some.inj hd)
    have hsome : s.strategy? = some (.fixed token) :=
      Option.filter_eq_some_iff.mpr ⟨hr, rfl⟩
    obtain rfl := Option.some.inj hs
    refine ⟨rfl, 0, fun p hp => (by cases hsome.symm.trans hp), ?_⟩
    rw [hsome]
    exact .sending rfl rfl
  | asksProvider hd hr hg =>
    rename_i p g
    obtain ⟨rfl, rfl⟩ := Prod.mk.inj (Option.some.inj hd)
    have hsome : s.strategy? = some (.provided p) :=
      Option.filter_eq_some_iff.mpr ⟨hr, by simp [present?, hg]⟩
    refine ⟨rfl, g.strategy.calls.size, fun q hq => ?_, ?_⟩
    · obtain ⟨⟩ := Option.some.inj (hsome.symm.trans hq)
      exact ⟨by rw [nextCall?, hg]; rfl, rfl⟩
    · rw [hsome]
      exact .asking rfl
  | sends hstage | lacks hstage =>
    obtain ⟨-, hd, -⟩ | hsending := hstage
    · cases hd
    · cases hsending

/-- What comes of the answer to an operation. -/
theorem Course.of_answer {p : Exchanger} {a : Authenticator.Answer}
    (h : Course settings op i strategy call answer (.asking p call) heard)
    (ha : answer = some a) (hs : (Errand.secret op).answered? a = some next) :
    Course settings op i strategy call answer next (heard ++ ending i next) := by
  cases h with
  | asking hstrategy =>
    cases a with
    | issued result => cases hs
    | token result =>
      cases result with
      | error f =>
        obtain rfl := Option.some.inj hs
        exact .failed hstrategy ha
      | ok held =>
        obtain rfl := Option.some.inj hs
        exact .sending hstrategy ha

/-- An operation that is prepared can be sent with the token. -/
theorem Course.of_prepare_ok {token : String} {r : Request}
    (h : Course settings op i strategy call answer (.sending token) heard)
    (hr : op.prepare settings token = .ok r) :
    Course settings op i strategy call answer (.exchanging r) (heard ++ [.sent i r]) := by
  cases h with
  | sending hstrategy ha =>
    rcases op.prepare_cases settings token with ⟨hcan, hok⟩ | ⟨-, reason, herror⟩
    · obtain rfl := Except.ok.inj (hok.symm.trans hr)
      exact .sent hstrategy ha hcan
    · cases herror.symm.trans hr

/-- An operation that cannot be prepared cannot be sent with the token. -/
theorem Course.of_prepare_error {token : String} {f : Failure}
    (h : Course settings op i strategy call answer (.sending token) heard)
    (hr : op.prepare settings token = .error f) :
    Course settings op i strategy call answer (.finished (.secret (.error f)))
      (heard ++ [.finished i (.secret (.error f))]) := by
  cases h with
  | sending hstrategy ha =>
    rcases op.prepare_cases settings token with ⟨-, hok⟩ | ⟨hcan, reason, herror⟩
    · cases hok.symm.trans hr
    · obtain rfl := Except.error.inj (herror.symm.trans hr)
      exact .refused hstrategy ha hcan

/-- An operation that has set out goes along its course. -/
theorem Onward.course (h : Onward s i (.secret op) e stage next new)
    (hcourse : Course s.settings op i strategy call (strategy.bind (s.answerOf? call)) stage heard) :
    Course s.settings op i strategy call (strategy.bind (s.answerOf? call)) next
      (heard ++ new) := by
  cases h with
  | misses | asksFixed | asksProvider => cases hcourse
  | resumes ha hs =>
    obtain ⟨hstrategy, rfl⟩ := hcourse.of_asking
    refine hcourse.of_answer ?_ hs
    rw [hstrategy]
    exact ha
  | sends hstage hr =>
    obtain ⟨rfl, -⟩ | rfl := hstage
    · cases hcourse
    · exact hcourse.of_prepare_ok (Option.some.inj hr)
  | lacks hstage hr =>
    obtain ⟨rfl, -⟩ | rfl := hstage
    · cases hcourse
    · exact hcourse.of_prepare_error (Option.some.inj hr)
  | hears reply ho =>
    cases hcourse with
    | sent hstrategy ha hr =>
      obtain rfl := Option.some.inj ho
      exact .answered hstrategy ha hr reply

/-! ### Operations under way -/

/-- Of two notices, not first the request of the operation and then one of its call. -/
def InOrder (strategy : Option Strategy) (i call : Nat) (first second : Notice) : Prop :=
  ∀ p r r', strategy = some (.provided p) → first = .sent i r →
    second ≠ .within p (.sent call r')

/-- An operation on a secret that has looked up its strategy: where it stands and what has been let
known. -/
structure Underway (settings : VaultSettings) (op : Secrets.Operation) (i : Nat)
    (strategy : Option Strategy) (call : Nat) (s : Services) (stage : Errand.Stage)
    (past : List Notice) : Prop where
  /-- It is on its course, with the answer that the strategy has given to its call. -/
  course : Course settings op i strategy call (strategy.bind (s.answerOf? call)) stage
    (about i past)
  /-- Its call is one for a token. -/
  asked : ∀ p, strategy = some (.provided p) → ∃ g phase, s.provider? p = some g ∧
    g.strategy.calls[call]? = some ⟨.token, phase⟩
  /-- Behind its request no request of the call has been sent. -/
  order : past.Pairwise (InOrder strategy i call)

/-- A strategy's answer stays. -/
theorem Change.answerOf?_eq (h : Change env s e t new) (asked : Strategy)
    (a : Authenticator.Answer) (ha : s.answerOf? call asked = some a) :
    t.answerOf? call asked = some a := by
  cases asked with
  | fixed token => exact ha
  | provided p =>
    obtain ⟨own, htraces⟩ := h.traces p
    exact (htraces.answer? ha).1

/-- A request of an errand is all that its event lets known. -/
theorem Change.eq_of_sent (h : Change env s e t new) {r : Request} (hr : .sent i r ∈ new) :
    new = [.sent i r] := by
  have none_ending : ∀ {j : Nat} {stage : Errand.Stage}, .sent i r ∉ ending j stage := by
    intro j stage hmem
    cases stage <;> simp [ending] at hmem
  cases h with
  | nothing | asks | registers => cases hr
  | schedules he ht => cases ht.silent _ hr
  | goes hc honward ht =>
    cases honward with
    | sends => rw [List.mem_singleton.mp hr]
    | asksFixed => exact absurd (List.mem_of_ne_of_mem (by simp) hr) none_ending
    | resumes => exact absurd hr none_ending
    | misses | asksProvider | lacks | hears => simp at hr

theorem mem_about_of_sent {r : Request} (hr : .sent i r ∈ past) : .sent i r ∈ about i past :=
  List.mem_filter.mpr ⟨hr, by simp [Notice.task?]⟩

theorem Change.inOrder (h : Change env s e t new) (strategy : Option Strategy) (i call : Nat) :
    new.Pairwise (InOrder strategy i call) := by
  by_cases hnew : ∃ r, .sent i r ∈ new
  · obtain ⟨r, hr⟩ := hnew
    rw [h.eq_of_sent hr]
    exact List.pairwise_singleton _ _
  · refine List.pairwise_of_forall_mem_list fun n hn n' _ p r r' _ hsent => ?_
    exact absurd ⟨r, hsent ▸ hn⟩ hnew

/-- A course goes on as it was when something else happens. -/
theorem Change.later (h : Change env s e t new)
    (hcourse : Course settings op i strategy call (strategy.bind (s.answerOf? call)) stage heard) :
    Course settings op i strategy call (strategy.bind (t.answerOf? call)) stage heard := by
  refine hcourse.mono fun a ha => ?_
  obtain ⟨asked, rfl, ha⟩ := Option.bind_eq_some_iff.mp ha
  exact h.answerOf?_eq asked a ha

/-- **An operation on a secret sets out with its first step**: it looks up its strategy and begins a
call to it. -/
theorem Change.setsOut (h : Change env s e t new)
    (hc : s.tasks[i]? = some ⟨.secret op, .begun⟩) (hpast : about i past = []) :
    t.tasks[i]? = some ⟨.secret op, .begun⟩ ∧ about i (past ++ new) = [] ∨
      e = .proceed i ∧ ∃ call next,
        (∀ p, s.strategy? = some (.provided p) → s.nextCall? p = some call) ∧
          t.tasks[i]? = some ⟨.secret op, next⟩ ∧
            Underway s.settings op i s.strategy? call t next (past ++ new) := by
  rcases h.onward hc with ⟨hsame, hnone⟩ | ⟨next, hnext, honward⟩
  · left
    rw [about_append, hpast, hnone]
    exact ⟨hsame, rfl⟩
  right
  obtain ⟨hproceed, call, hcall, hcourse⟩ := honward.course_of_begun
  refine ⟨hproceed, call, next, fun p hp => (hcall p hp).1, hnext, ?_, ?_, ?_⟩
  · rw [about_append, hpast, honward.about_eq, List.nil_append]
    exact h.later hcourse
  · intro p hp
    obtain ⟨hnumber, hnew⟩ := hcall p hp
    obtain ⟨g, hg, rfl⟩ := Option.map_eq_some_iff.mp hnumber
    refine ⟨g.after [(env, .begin .token)], .begun, ?_, ?_⟩
    · rw [h.provider_of_task honward.task?_eq p, hg, hnew]
      simp [demands]
    · show (g.strategy.calls.push _)[g.strategy.calls.size]? = _
      rw [Array.getElem?_push_size]
  · refine List.pairwise_append.mpr ⟨?_, h.inOrder _ i call, ?_⟩
    · refine List.pairwise_of_forall_mem_list fun n hn n' _ p r r' _ hsent => ?_
      have hmem := mem_about_of_sent (hsent ▸ hn)
      rw [hpast] at hmem
      cases hmem
    · rintro n hn n' - p r r' - rfl
      have hmem := mem_about_of_sent hn
      rw [hpast] at hmem
      cases hmem

/-- **A step takes an operation on a secret along its course.** -/
theorem Underway.step (h : Underway s.settings op i strategy call s stage past)
    (hchange : Change env s e t new) (hc : s.tasks[i]? = some ⟨.secret op, stage⟩) :
    ∃ next, t.tasks[i]? = some ⟨.secret op, next⟩ ∧
      Underway s.settings op i strategy call t next (past ++ new) := by
  have hasked : ∀ p, strategy = some (.provided p) → ∃ g phase, t.provider? p = some g ∧
      g.strategy.calls[call]? = some ⟨.token, phase⟩ := by
    intro p hp
    obtain ⟨g, phase, hg, hcall⟩ := h.asked p hp
    obtain ⟨own, htraces⟩ := hchange.traces p
    obtain ⟨phase', hcall'⟩ := Authenticator.exists_call_run g.method own hcall
    exact ⟨g.after own, phase', by rw [htraces.provider, hg]; rfl, hcall'⟩
  have horder : (past ++ new).Pairwise (InOrder strategy i call) := by
    refine List.pairwise_append.mpr ⟨h.order, hchange.inOrder strategy i call, ?_⟩
    -- once it has been sent the call has its answer, and a call that is answered sends nothing
    rintro n hn n' hn' p r r' hp rfl rfl
    obtain ⟨a, ha⟩ := h.course.answered_of_sent (mem_about_of_sent hn)
    rw [hp] at ha
    obtain ⟨own, htraces⟩ := hchange.traces p
    exact (htraces.answer? ha).2 r' hn'
  rcases hchange.onward hc with ⟨hsame, hnone⟩ | ⟨next, hnext, honward⟩
  · refine ⟨stage, hsame, ?_, hasked, horder⟩
    rw [about_append, hnone, List.append_nil]
    exact hchange.later h.course
  · refine ⟨next, hnext, ?_, hasked, horder⟩
    rw [about_append, honward.about_eq]
    exact hchange.later (honward.course h.course)

/-- An operation on a secret that has set out: its first step is the event behind `before`, and
since then it has used what it found there. -/
structure Performed (o : Outfit) (op : Secrets.Operation) (i : Nat)
    (events before : List (Surroundings × Event)) (call : Nat) (stage : Errand.Stage) : Prop where
  /-- Its first step is the next event. -/
  first : ∃ env after, events = before ++ (env, .proceed i) :: after
  /-- It has begun before. -/
  begun : (o.opened.run before).1.tasks[i]? = some ⟨.secret op, .begun⟩
  /-- Before, nothing was known of it. -/
  unheard : about i (o.opened.run before).2 = []
  /-- Its call is the next one that the strategy gets. -/
  number : ∀ p, o.inForce before = some (.provided p) →
    (o.opened.run before).1.nextCall? p = some call
  /-- Since then it has been under way. -/
  underway : Underway o.settings op i (o.inForce before) call (o.opened.run events).1 stage
    (o.opened.run events).2

theorem run_concat (s : Services) (events : List (Surroundings × Event))
    (x : Surroundings × Event) :
    s.run (events ++ [x]) = (((s.run events).1.step x.1 x.2).1,
      (s.run events).2 ++ ((s.run events).1.step x.1 x.2).2) := by
  rw [run_append, run_cons, run, List.append_nil]

/-- **After every run, an operation on a secret has not set out yet, or it has performed what it
found at its first step.** -/
theorem performed_run (o : Outfit) (events : List (Surroundings × Event))
    (hc : (o.opened.run events).1.tasks[i]? = some ⟨.secret op, stage⟩) :
    stage = .begun ∧ about i (o.opened.run events).2 = [] ∨
      ∃ before call, Performed o op i events before call stage := by
  induction events using List.reverseRecOn generalizing stage with
  | nil => cases hc
  | append_singleton events x ih =>
    have hchange := change_step x.1 (o.opened.run events).1 x.2
    have hsettings := settings_opened_run o events
    have hunheard := unheard_run o (events ++ [x])
    rw [run_concat] at hc hunheard ⊢
    rcases hchange.task_cases hc with ⟨old, hold⟩ | ⟨-, hbegun⟩
    · rcases ih hold with ⟨rfl, hpast⟩ | ⟨before, call, h⟩
      · rcases hchange.setsOut hold hpast with
          ⟨hsame, hnone⟩ | ⟨hproceed, call, next, hcall, hnext, hunderway⟩
        · cases hsame.symm.trans hc
          exact .inl ⟨rfl, hnone⟩
        · right
          cases hnext.symm.trans hc
          rw [strategy?_run] at hcall hunderway
          rw [hsettings] at hunderway
          refine ⟨events, call, ⟨x.1, [], ?_⟩, hold, hpast, hcall, ?_⟩
          · rw [← hproceed]
          · rw [run_concat]
            exact hunderway
      · right
        obtain ⟨env, after, hevents⟩ := h.first
        have hunderway := h.underway
        rw [← hsettings] at hunderway
        obtain ⟨next, hnext, hunderway⟩ := hunderway.step hchange hold
        cases hnext.symm.trans hc
        rw [hsettings] at hunderway
        refine ⟨before, call, ⟨env, after ++ [x], ?_⟩, h.begun, h.unheard, h.number, ?_⟩
        · rw [hevents, List.append_assoc, List.cons_append]
        · rw [run_concat]
          exact hunderway
    · refine .inl ⟨hbegun, hunheard i fun task htask => ?_⟩
      cases hc.symm.trans htask
      exact hbegun

/-! ### Operations come to an end -/

/-- An operation on a secret is over, or it can take a step that brings it closer to its end, or the
reply to its request brings it there, or it waits for a call that has not come to its own end. -/
def Advances (s : Services) (i : Nat) (op : Secrets.Operation) (stage : Errand.Stage) : Prop :=
  (∃ result, stage = .finished (.secret result)) ∨
    (∀ env, ∃ next, (s.step env (.proceed i)).1.tasks[i]? = some ⟨.secret op, next⟩ ∧
      next.stepsLeft < stage.stepsLeft) ∨
    (∃ r, stage = .exchanging r ∧ ∀ env reply,
      (s.step env (.reply i reply)).1.tasks[i]?
        = some ⟨.secret op, .finished (.secret (op.conclude r.url reply))⟩) ∨
    ∃ p call g j, stage = .asking p call ∧ s.provider? p = some g ∧
      (g.strategy.isReady j = true ∨ (g.strategy.pending? j).isSome = true)

theorem tasks_dispatch (hc : s.tasks[i]? = some ⟨.secret op, stage⟩) (token : String) :
    ∃ next, (s.dispatch i (.secret op) token).1.tasks[i]? = some ⟨.secret op, next⟩ ∧
      next.stepsLeft ≤ 1 := by
  rw [dispatch, show (Errand.secret op).request? s.settings token
    = some (op.prepare s.settings token) from rfl]
  cases op.prepare s.settings token with
  | ok r => exact ⟨_, tasks_enter_self hc _, Nat.le_refl 1⟩
  | error f => exact ⟨_, tasks_enter_self hc _, Nat.zero_le 1⟩

theorem tasks_resume (hc : s.tasks[i]? = some ⟨.secret op, stage⟩) (result : Except Failure String) :
    ∃ next, (s.resume i (.secret op) (.token result)).1.tasks[i]? = some ⟨.secret op, next⟩ ∧
      next.stepsLeft ≤ 2 := by
  cases result with
  | ok held => exact ⟨_, tasks_enter_self hc _, Nat.le_refl 2⟩
  | error f => exact ⟨_, tasks_enter_self hc _, Nat.zero_le 2⟩

theorem tasks_consult (hc : s.tasks[i]? = some ⟨.secret op, stage⟩) (env : Surroundings)
    (name : String) :
    ∃ next, (s.consult env i (.secret op) name .token).1.tasks[i]? = some ⟨.secret op, next⟩ ∧
      next.stepsLeft ≤ 3 := by
  rw [consult]
  split
  · exact ⟨_, tasks_enter_self hc _, Nat.zero_le 3⟩
  · rename_i token hr
    obtain ⟨next, hnext, hle⟩ := tasks_resume hc (.ok token)
    exact ⟨next, hnext, Nat.le_succ_of_le hle⟩
  · split
    · exact ⟨_, tasks_enter_self hc _, Nat.zero_le 3⟩
    · rename_i p hr _ call hcall
      have hwithin : (s.within env p (.begin .token)).1.tasks[i]? = some ⟨.secret op, stage⟩ :=
        (scheduled_within env s p _).tasks ▸ hc
      exact ⟨_, tasks_enter_self hwithin _, Nat.le_refl 3⟩

/-- **No operation on a secret is stuck.** -/
theorem advances_run (o : Outfit) (events : List (Surroundings × Event))
    (hc : (o.opened.run events).1.tasks[i]? = some ⟨.secret op, stage⟩) :
    (o.opened.run events).1.Advances i op stage := by
  have proceeds : ∀ env, (o.opened.run events).1.step env (.proceed i)
      = (o.opened.run events).1.proceed env i := fun _ => rfl
  rcases performed_run o events hc with ⟨rfl, -⟩ | ⟨before, call, h⟩
  · refine .inr (.inl fun env => ?_)
    obtain ⟨next, hnext, hle⟩ := tasks_consult hc env (o.opened.run events).1.settings.method
    refine ⟨next, ?_, Nat.lt_of_le_of_lt hle (by decide)⟩
    rw [proceeds, proceed, hc]
    exact hnext
  have hcourse := h.underway.course
  generalize about i (o.opened.run events).2 = heard at hcourse
  cases hcourse with
  | unknown | failed | refused | answered => exact .inl ⟨_, rfl⟩
  | asking hs =>
    rename_i p
    obtain ⟨g, phase, hg, hcall⟩ := h.underway.asked p hs
    rcases o.exists_turn events hg hcall with ⟨result, rfl⟩ | ⟨j, hj⟩
    · have ha : (o.opened.run events).1.answer? p call = some (.token result) := by
        rw [answer?, hg, Option.bind_some]
        exact Authenticator.answer?_eq_some.mpr ⟨_, hcall⟩
      refine .inr (.inl fun env => ?_)
      obtain ⟨next, hnext, hle⟩ := tasks_resume hc result
      refine ⟨next, ?_, Nat.lt_succ_of_le hle⟩
      rw [proceeds, proceed, hc]
      simp only [ha]
      exact hnext
    · exact .inr (.inr (.inr ⟨p, call, g, j, rfl, hg, hj⟩))
  | sending hs ha =>
    rename_i asked token
    refine .inr (.inl fun env => ?_)
    obtain ⟨next, hnext, hle⟩ := tasks_dispatch hc token
    refine ⟨next, ?_, Nat.lt_succ_of_le hle⟩
    rw [proceeds, proceed, hc]
    exact hnext
  | sent hs ha hr =>
    refine .inr (.inr (.inl ⟨_, rfl, fun env reply => ?_⟩))
    show ((o.opened.run events).1.receive i reply).1.tasks[i]? = _
    rw [receive, hc]
    exact tasks_enter_self hc _

/-! ### What operations leave alone -/

/-- Checks of the server's health go along their course. -/
theorem healthCourse_run (o : Outfit) (events : List (Surroundings × Event))
    (hc : (o.opened.run events).1.tasks[i]? = some ⟨.health, stage⟩) :
    HealthCourse o.settings i stage (about i (o.opened.run events).2) := by
  induction events using List.reverseRecOn generalizing stage with
  | nil => cases hc
  | append_singleton events x ih =>
    have hchange := change_step x.1 (o.opened.run events).1 x.2
    have hunheard := unheard_run o (events ++ [x])
    have hsettings := settings_opened_run o (events ++ [x])
    rw [run_concat] at hc hunheard hsettings ⊢
    rcases hchange.task_cases hc with ⟨old, hold⟩ | ⟨-, hbegun⟩
    · have hcourse := ih hold
      rw [← settings_opened_run o events] at hcourse
      obtain ⟨next, hnext, hnextCourse⟩ := hchange.healthCourse hold hcourse
      cases hnext.symm.trans hc
      rwa [hsettings] at hnextCourse
    · obtain rfl : stage = .begun := hbegun
      rw [hunheard i fun task htask => by cases hc.symm.trans htask; rfl]
      exact .begun

/-- A check of the server's health asks no strategy and sends no token. -/
theorem HealthCourse.silent (h : HealthCourse settings i stage heard) :
    (∀ strategy demand, .asked i strategy demand ∉ heard) ∧
      ∀ r, .sent i r ∈ heard → r.token = none := by
  have tokenless : ∀ {r : Request}, Health.prepare settings = .ok r → r.token = none := by
    intro r hr
    rw [Health.prepare] at hr
    split at hr
    · rename_i r' hready
      obtain rfl := Except.ok.inj hr
      rw [(Http.ready_eq_ok_iff.mp hready).1.symm]
      exact Health.token_request settings
    · cases hr
  cases h with
  | begun => exact ⟨by simp, by simp⟩
  | refused hr => exact ⟨by simp, by simp⟩
  | sent hr =>
    refine ⟨by simp, fun r hmem => ?_⟩
    cases List.mem_singleton.mp hmem
    exact tokenless hr
  | answered hr reply =>
    refine ⟨by simp, fun r hmem => ?_⟩
    rcases List.mem_cons.mp hmem with hmem | hmem
    · cases hmem
      exact tokenless hr
    · simp at hmem

/-- **A check of the server's health does nothing to a provider.** -/
theorem Change.provider_of_health (h : Change env s e t new) (hi : e.task? = some i)
    (hc : s.tasks[i]? = some ⟨.health, stage⟩) (p : Exchanger) :
    t.provider? p = s.provider? p := by
  have hnone : demands env p new = [] := by
    refine List.filterMap_eq_nil_iff.mpr fun n hn => ?_
    cases n with
    | asked j strategy demand =>
      obtain rfl : i = j := Option.some.inj (hi.symm.trans (h.task?_eq_of_mem hn rfl))
      have hmem : .asked i strategy demand ∈ about i new :=
        List.mem_filter.mpr ⟨hn, by simp [Notice.task?]⟩
      rcases h.onward hc with ⟨-, hnone⟩ | ⟨next, -, honward⟩
      · rw [hnone] at hmem
        cases hmem
      · cases honward with
        | misses hd | asksFixed hd | asksProvider hd => cases hd
        | resumes ha hs =>
          rename_i answer
          cases answer with
          | issued result => cases hs
          | token result =>
            cases result with
            | ok held => cases hs
            | error f =>
              obtain rfl := Option.some.inj hs
              simp [ending] at hn
        | sends | lacks | hears => simp at hn
    | _ => rfl
  rw [h.provider_of_task hi p, hnone]
  cases s.provider? p <;> rfl

/-! ### The secret client -/

/-- **The secret client only consumes tokens.** It is made up of any providers, with any settings,
and anything happens to it, registrations included. Then

* every operation on a secret has not set out yet, or has looked its strategy up at its first step
  and is on its course with that strategy's answer to its one call, and it is not stuck;
* every check of the server's health is on its course, without a token, and does nothing to a
  provider;
* what happens to an errand does nothing to a provider but to begin the calls that it is known to
  have asked for;
* every provider is as if each operation had been a bare question for the token and nobody had
  replied to an errand. -/
theorem secret_errands (o : Outfit) (events : List (Surroundings × Event)) :
    let s := (o.opened.run events).1
    let past := (o.opened.run events).2
    (∀ i op stage, s.tasks[i]? = some ⟨.secret op, stage⟩ →
      (stage = .begun ∧ about i past = [] ∨
        ∃ before call, Performed o op i events before call stage) ∧ s.Advances i op stage) ∧
    (∀ i stage, s.tasks[i]? = some ⟨.health, stage⟩ →
      HealthCourse o.settings i stage (about i past) ∧
        (∀ strategy demand, .asked i strategy demand ∉ past) ∧
          (∀ r, .sent i r ∈ past → r.token = none) ∧
            ∀ env e p, e.task? = some i → (s.step env e).1.provider? p = s.provider? p) ∧
    (∀ env e i p, e.task? = some i → (s.step env e).1.provider? p
      = (s.provider? p).map (·.after (demands env p (s.step env e).2))) ∧
    ∀ p, s.provider? p
      = (o.opened.run (bareEvents o.settings.method events)).1.provider? p := by
  intro s past
  refine ⟨?_, ?_, ?_, ?_⟩
  · intro i op stage hc
    exact ⟨performed_run o events hc, advances_run o events hc⟩
  · intro i stage hc
    have hcourse := healthCourse_run o events hc
    refine ⟨hcourse, ?_, ?_, ?_⟩
    · intro strategy demand hasked
      refine hcourse.silent.1 strategy demand (List.mem_filter.mpr ⟨hasked, ?_⟩)
      simp [Notice.task?]
    · intro r hr
      exact hcourse.silent.2 r (mem_about_of_sent hr)
    · intro env e p hi
      exact (change_step env s e).provider_of_health hi hc p
  · intro env e i p hi
    exact (change_step env s e).provider_of_task hi p
  · exact provider?_bareEvents o.opened events

/-- The settings of a client whose server has a name with a brace. -/
def bracedServer : VaultSettings where
  url := ⟨.http, ⟨[], none⟩, .name "a\x7bb", none, [[]], none, none⟩
  method := fallbackMethod
  fallbackToken := some "root"
  healthCheck := true
  healthPath := usualHealthPath
  standbyOk := false
  secretPath := usualSecretPath
  folder := none
  timeout := usualTimeout
  method_ne := by decide
  fallback_ne := by decide
  folder_named := nofun

theorem prepare_bracedServer : (Secrets.Operation.resolve "k").prepare bracedServer "root"
    = .error (.network ("Failed to get secret with reason: " ++
        "builder error for url (http://a\x7bb/v1/secret/data/k)")) := by
  have hheader : Http.isHeaderValue "root" = true := by decide +kernel
  have htarget : Http.isTarget (Secrets.address bracedServer .content "k") = false := by
    decide +kernel
  have hshown : (Secrets.address bracedServer .content "k").withoutCredentials.toString
      = "http://a\x7bb/v1/secret/data/k" := by
    decide +kernel
  simp [Secrets.Operation.prepare, Secrets.Operation.request, Secrets.Operation.entry,
    Secrets.Operation.key, Secrets.Operation.unreached, Secrets.Operation.unreachedWords,
    Http.ready, Http.notBuilt, Http.shown, hheader, htarget, hshown]

/-- A server may have a name to which no request can be made. Then a valid token is asked for, and
nothing is sent with it. -/
theorem nothing_sent_bracedServer :
    VaultSettings.make ⟨"http://a\x7bb", none, some "root", none, none, none, none, none, none⟩
        = .ok bracedServer ∧
      Http.isHeaderValue "root" = true ∧
        ∀ env, ((Outfit.mk bracedServer none none [] []).opened.run
            [(env, .ask (.secret (.resolve "k"))), (env, .proceed 0), (env, .proceed 0)]).2
          = [.asked 0 (.fixed "root") .token,
              .finished 0 (.secret (.error (.network ("Failed to get secret with reason: " ++
                "builder error for url (http://a\x7bb/v1/secret/data/k)"))))] := by
  refine ⟨?_, by decide +kernel, fun env => ?_⟩
  · have hparse : Url.parse? "http://a\x7bb" = some bracedServer.url := by decide +kernel
    simp only [VaultSettings.make, readUrl, hparse]
    rfl
  · have hmethod : bracedServer.method = fallbackMethod := rfl
    have htoken : bracedServer.fallbackToken = some "root" := rfl
    simp [run, step, proceed, consult, resume, dispatch, finish, enter, Outfit.opened, initial,
      Registry.resolve, Errand.demand?, Errand.answered?, Errand.fixedAnswer, Errand.request?,
      Errand.failed, hmethod, htoken, prepare_bracedServer]

end Services

end VaultTokens
