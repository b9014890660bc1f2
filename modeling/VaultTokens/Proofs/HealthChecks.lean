import VaultTokens.Proofs.ErrandFrame
import VaultTokens.Proofs.StartupFailure

/-!
# What a check of health changes

Nothing but itself. The errand that checks the server's health asks no strategy, so whatever the
server replies to it, and whether it replies at all, the strategies, the schedulers and the
registrations are the same, and so is everything that is let known apart from errands.

Services over two networks that reply alike to every other request go the same way. What happens
next is the same over both, but for the reply to the check itself, and once that has come, its
outcome decides nothing.

## Main results

* `bare_step_congr`, `apart_step_eq` — what happens apart from errands does not depend on them
* `next?_congr` — what happens next over two networks
* `Alike.turn`, `Alike.exhaust` — services over two networks go the same way
-/

namespace VaultTokens

namespace Services

variable {s t : Services} {env : Surroundings} {e : Event} {p : Exchanger} {new : List Notice}

/-! ### Apart from errands -/

/-- Notices that are not about errands. -/
def apart (notices : List Notice) : List Notice := notices.filter (·.task?.isNone)

@[simp]
theorem apart_append (past new : List Notice) : apart (past ++ new) = apart past ++ apart new :=
  List.filter_append ..

/-- The services without their errands. -/
def withoutTasks (s : Services) : Services := { s with tasks := #[] }

/-- What is not about errands does not depend on them. -/
theorem withoutTasks_eq_of_bare (h : s.bare = t.bare) : s.withoutTasks = t.withoutTasks :=
  show s.bare.withoutTasks = t.bare.withoutTasks from congrArg withoutTasks h

theorem provider?_eq_of_bare (h : s.bare = t.bare) (p : Exchanger) :
    s.provider? p = t.provider? p := by
  rw [← provider?_bare s, h, provider?_bare]

theorem Change.apart_of_task (h : Change env s e t new) {i : Nat} (hi : e.task? = some i) :
    apart new = [] := by
  refine List.filter_eq_nil_iff.mpr fun n hn => ?_
  cases h with
  | nothing | asks | registers => cases hn
  | schedules he ht => cases (Event.task?_of_isScheduling he).symm.trans hi
  | goes hc honward ht => simp [honward.task?_of_mem hn]

theorem snd_within_bare (env : Surroundings) (s : Services) (p : Exchanger)
    (e : Authenticator.Event) : (s.bare.within env p e).2 = (s.within env p e).2 := by
  rw [within, within, provider?_bare]
  cases s.provider? p <;> rfl

/-- What an event lets known apart from errands does not depend on them. -/
theorem apart_step_bare (env : Surroundings) (s : Services) (e : Event) :
    apart (s.bare.step env e).2 = apart (s.step env e).2 := by
  have ofTask : ∀ {e : Event} {i : Nat}, e.task? = some i →
      apart (s.bare.step env e).2 = apart (s.step env e).2 := by
    intro e i hi
    rw [(change_step env s e).apart_of_task hi, (change_step env s.bare e).apart_of_task hi]
  cases e with
  | proceed i => exact ofTask rfl
  | reply i reply => exact ofTask rfl
  | ask | start | startFrom | stop | shutdown | register => rfl
  | advance p call => exact congrArg apart (snd_within_bare env s p _)
  | deliver p call reply => exact congrArg apart (snd_within_bare env s p _)
  | fire k =>
    rw [step, step, fire, fire, show s.bare.schedulers = s.schedulers from rfl]
    cases s.schedulers[k]? with
    | none => rfl
    | some entry =>
      obtain ⟨p, scheduler⟩ := entry
      simp only [nextCall?, provider?_bare]
      split
      · exact congrArg apart (snd_within_bare env s p _)
      · rfl
  | settle k =>
    rw [step, step, settle, settle, show s.bare.schedulers = s.schedulers from rfl]
    cases s.schedulers[k]? with
    | none => rfl
    | some entry =>
      obtain ⟨p, scheduler⟩ := entry
      simp only [settled?, answer?, provider?_bare]
      split <;> rfl

theorem apart_step_eq (h : s.bare = t.bare) (env : Surroundings) (e : Event) :
    apart (s.step env e).2 = apart (t.step env e).2 := by
  rw [← apart_step_bare, h, apart_step_bare]

/-- What an event does apart from errands does not depend on them. -/
theorem bare_step_congr (h : s.bare = t.bare) (env : Surroundings) (e : Event) :
    (s.step env e).1.bare = (t.step env e).1.bare := by
  have hsettings : s.bare.settings = t.bare.settings := congrArg Services.settings h
  rw [bare_step, bare_step, h, show s.settings = t.settings from hsettings]

theorem bare_schedulers_congr (h : s.bare = t.bare)
    (schedulers : List (Exchanger × Renewal.Scheduler Nat)) :
    ({ s with schedulers } : Services).bare = ({ t with schedulers } : Services).bare :=
  congrArg (fun s : Services => { s with schedulers }) h

/-- Whether an event is the reply to an errand. -/
def Event.isReply : Event → Bool
  | .reply .. => true
  | _ => false

end Services

/-! ### Requests of providers -/

namespace Login

theorem verb_of_post {w : Words} {endpoint body : String} {token : Option String} {r : Request}
    (h : post w endpoint token body = .ok r) : r.verb = .post := by
  rw [post] at h
  split at h
  · cases h
  · cases h
  · rw [prepare] at h
    split at h
    · rename_i r' hready
      obtain rfl := Except.ok.inj h
      exact (congrArg Request.verb (Http.ready_eq_ok_iff.mp hready).1).symm
    · cases h

end Login

theorem Method.verb_of_prepare {m : Method} {files : FileTree} {r : Request}
    (h : m.prepare files = .ok r) : r.verb = .post := by
  cases m with
  | kubernetes server role account threshold =>
    obtain ⟨jwt, -, hrequest⟩ := prepare_kubernetes_eq_ok.mp h
    exact Login.verb_of_post hrequest
  | renewal =>
    rw [prepare] at h
    exact Login.verb_of_post h

theorem Health.verb_of_prepare {settings : VaultSettings} {r : Request}
    (h : prepare settings = .ok r) : r.verb = .get := by
  rw [prepare] at h
  split at h
  · rename_i r' hready
    obtain rfl := Except.ok.inj h
    exact (congrArg Request.verb (Http.ready_eq_ok_iff.mp hready).1).symm
  · cases h

namespace Authenticator

variable {m : Method} {env : Surroundings} {a b : Authenticator} {e : Event} {new : List Notice}

/-- What calls wait for the replies to are logins and renewals, which are posted. -/
def Posting (a : Authenticator) : Prop :=
  ∀ (i : Nat) (d : Demand) (r : Request), a.calls[i]? = some ⟨d, .exchanging r⟩ → r.verb = .post

theorem posting_initial : Posting initial := by
  intro i d r hc
  cases hc

theorem Posting.step (h : Posting a) (hchange : Change m env a e b new) : Posting b := by
  intro i d r hc
  by_cases hown : e.call? = some i
  · -- a call that has just gone on waits for a reply only if it has just sent its request
    have goes : ∀ {j : Nat} {c : Call} {next : Phase}, a.calls[j]? = some c → some j = some i →
        b.calls = (a.enter j next).calls → next = .exchanging r := by
      intro j c next hj hji hb
      obtain rfl := Option.some.inj hji
      rw [hb, calls_enter_self hj next] at hc
      exact (Call.mk.inj (Option.some.inj hc)).2
    cases hchange with
    | nothing => exact h i d r hc
    | begins => cases hown
    | sends hj hr =>
      obtain rfl := Phase.exchanging.inj (goes hj hown rfl)
      exact Method.verb_of_prepare hr
    | enters hj =>
      rename_i j seen d' hi
      have hnext := goes hj hown rfl
      rcases admitted_cases m env a d' seen with hp | ⟨answer, hp⟩ <;> cases hp.symm.trans hnext
    | records hj =>
      rename_i j d' o
      have hnext := goes hj hown rfl
      cases d' <;> cases hnext
    | looks hj | serves hj | passes hj | joins hj | lacks hj | hears _ hj | leaves hj | turns hj
    | reads hj | yields hj => cases goes hj hown rfl
  · rcases hchange.calls_cases hc with hmoved | hold | hbegun
    · exact absurd hmoved hown
    · exact h i d r hold
    · cases hbegun

theorem Posting.run (h : Posting a) (m : Method) (events : List (Surroundings × Event)) :
    Posting (a.run m events).1 :=
  Authenticator.run_induction (fun b _ => Posting b)
    (fun _ _ _ _ _ hchange h => h.step hchange) h

theorem Posting.verb_of_pending (h : Posting a) {i : Nat} {r : Request}
    (hr : a.pending? i = some r) : r.verb = .post := by
  rw [pending?] at hr
  split at hr
  · rename_i d r' hc
    obtain rfl := Option.some.inj hr
    exact h i d r' hc
  · cases hr

end Authenticator

/-! ### Services over two networks -/

namespace Services

variable {s t : Services} {env : Surroundings} {e : Event} {p : Exchanger} {new : List Notice}
  {first second : Network}

/-- Two networks reply alike to every request but the check of the server's health. -/
def RepliesAlike (settings : VaultSettings) (first second : Network) : Prop :=
  ∀ r, Health.prepare settings ≠ .ok r → first r = second r

/-- Services of which nobody has asked anything but whether the server is healthy. -/
structure Checking (s : Services) : Prop where
  /-- Health is checked, or there is no errand. -/
  tasks : s.tasks = #[] ∨ ∃ stage past, s.tasks = #[⟨.health, stage⟩] ∧
    HealthCourse s.settings 0 stage (about 0 past)
  /-- Providers wait for replies to logins and renewals. -/
  posting : ∀ p g, s.provider? p = some g → g.strategy.Posting

/-- The check of the server's health is over. -/
def Checked (s : Services) : Prop := ∃ outcome, s.tasks = #[⟨.health, .finished outcome⟩]

/-- An event that happens by itself begins no errand. -/
theorem Change.size_tasks (h : Change env s e t new) (he : e.isOwn = true) :
    t.tasks.size = s.tasks.size := by
  cases h with
  | nothing => rfl
  | asks | registers => cases he
  | schedules _ ht => rw [ht.tasks]
  | goes hc honward ht => rw [ht.tasks, enter, Array.size_modify]

theorem tasks_eq_singleton {task : Task} (hsize : s.tasks.size = 1) (hc : s.tasks[0]? = some task) :
    s.tasks = #[task] := by
  refine Array.ext_getElem? fun i => ?_
  cases i with
  | zero => exact hc
  | succ i => rw [Array.getElem?_eq_none (by omega), Array.getElem?_eq_none (by simp)]

theorem Checking.step (h : Checking s) (he : e.isOwn = true) (env : Surroundings) :
    Checking (s.step env e).1 := by
  have hchange := change_step env s e
  have hsize := hchange.size_tasks he
  constructor
  · rcases h.tasks with hnone | ⟨stage, past, hone, hcourse⟩
    · rw [hnone] at hsize
      exact .inl (Array.size_eq_zero_iff.mp hsize)
    · have hc : s.tasks[0]? = some ⟨.health, stage⟩ := by rw [hone]; rfl
      obtain ⟨next, hc', hcourse'⟩ := hchange.healthCourse hc hcourse
      rw [hone] at hsize
      exact .inr ⟨next, _, tasks_eq_singleton hsize hc', hcourse'⟩
  · intro p g hg
    obtain ⟨own, htraces⟩ := hchange.traces p
    rw [htraces.provider] at hg
    obtain ⟨g', hg', rfl⟩ := Option.map_eq_some_iff.mp hg
    exact (h.posting p g' hg').run g'.method own

/-- What happens next is decided by what can move by itself and then by the replies. -/
theorem next?_eq (network : Network) (env : Surroundings) (s : Services) :
    s.next? network env
      = (s.readyTask?.or ((s.exchangers.findSome? (s.readyCall? fun _ _ => true)).or
          (s.readyScheduler? env))).or
        ((s.repliedTask? fun r => some (network r)).or
          (s.exchangers.findSome? (s.repliedCall? fun r => some (network r)))) := by
  simp only [next?, replied?, Option.orElse_eq_orElse, Option.orElse_eq_or, Option.or_assoc]

theorem readyCall?_bare (among : Guarded → Nat → Bool) (s : Services) (p : Exchanger) :
    s.bare.readyCall? among p = s.readyCall? among p := by
  rw [readyCall?, readyCall?, provider?_bare]

theorem repliedCall?_bare (reply? : Request → Option Reply) (s : Services) (p : Exchanger) :
    s.bare.repliedCall? reply? p = s.repliedCall? reply? p := by
  rw [repliedCall?, repliedCall?, provider?_bare]

theorem readyScheduler?_bare (env : Surroundings) (s : Services) :
    s.bare.readyScheduler? env = s.readyScheduler? env := by
  simp only [readyScheduler?, settled?, answer?, provider?_bare]
  rfl

/-- Providers are replied to alike by both networks. -/
theorem repliedCall?_congr (h : Checking s) (hn : RepliesAlike s.settings first second)
    (p : Exchanger) : (s.repliedCall? fun r => some (first r)) p
      = (s.repliedCall? fun r => some (second r)) p := by
  simp only [repliedCall?]
  cases hg : s.provider? p with
  | none => rfl
  | some g =>
    simp only [Option.bind_some]
    refine congrArg (fun f => List.findSome? f _) (funext fun call => ?_)
    cases hr : g.strategy.pending? call with
    | none => rfl
    | some r =>
      have hsame : first r = second r := hn r fun hhealth => by
        cases ((h.posting p g hg).verb_of_pending hr).symm.trans (Health.verb_of_prepare hhealth)
      simp only [Option.bind_some, hsame]

theorem repliedTask?_of_singleton {task : Task} (hone : s.tasks = #[task])
    (reply? : Request → Option Reply) :
    s.repliedTask? reply? = match task.stage with
      | .exchanging r => (reply? r).map (Event.reply 0)
      | _ => none := by
  obtain ⟨errand, stage⟩ := task
  simp only [repliedTask?, hone, List.size_toArray, List.length_singleton, List.range_one,
    List.findSome?_cons, List.findSome?_nil, List.getElem?_toArray, List.getElem?_cons_zero]
  cases stage with
  | exchanging r => cases hr : reply? r <;> simp [hr]
  | _ => rfl

/-- **What happens next over two networks** is the same, but for the reply to the check of the
server's health. -/
theorem next?_congr (h : Checking s) (hn : RepliesAlike s.settings first second)
    (env : Surroundings) :
    s.next? first env = s.next? second env ∨
      ∃ r, s.tasks = #[⟨.health, .exchanging r⟩] ∧
        s.next? first env = some (.reply 0 (first r)) ∧
          s.next? second env = some (.reply 0 (second r)) := by
  have hcalls : (s.repliedCall? fun r => some (first r))
      = s.repliedCall? fun r => some (second r) :=
    funext (repliedCall?_congr h hn)
  have same : (s.repliedTask? fun r => some (first r)) = (s.repliedTask? fun r => some (second r)) →
      s.next? first env = s.next? second env := by
    intro htask
    rw [next?_eq, next?_eq, hcalls, htask]
  rcases h.tasks with hnone | ⟨stage, past, hone, hcourse⟩
  · exact .inl (same (by simp [repliedTask?, hnone]))
  · cases stage with
    | exchanging r =>
      cases hready : s.readyTask?.or ((s.exchangers.findSome? (s.readyCall? fun _ _ => true)).or
          (s.readyScheduler? env)) with
      | some e =>
        left
        rw [next?_eq, next?_eq, hready]
        rfl
      | none =>
        right
        refine ⟨r, hone, ?_, ?_⟩
        · rw [next?_eq, hready, repliedTask?_of_singleton hone]
          rfl
        · rw [next?_eq, hready, repliedTask?_of_singleton hone]
          rfl
    | begun | asking | sending | finished =>
      refine .inl (same ?_)
      rw [repliedTask?_of_singleton hone, repliedTask?_of_singleton hone]

theorem readyTask?_of_checked (h : Checked s) : s.readyTask? = none := by
  obtain ⟨outcome, hone⟩ := h
  rw [readyTask?, hone]
  simp [canProceed]

theorem repliedTask?_of_checked (h : Checked s) (reply? : Request → Option Reply) :
    s.repliedTask? reply? = none := by
  obtain ⟨outcome, hone⟩ := h
  exact repliedTask?_of_singleton hone reply?

/-- Once the check is over, its outcome makes no difference to what happens next. -/
theorem next?_of_checked (hs : Checked s) (ht : Checked t) (h : s.bare = t.bare)
    (network : Network) (env : Surroundings) : s.next? network env = t.next? network env := by
  have hexchangers : s.exchangers = t.exchangers :=
    show s.bare.exchangers = t.bare.exchangers from congrArg exchangers h
  have hready : (s.readyCall? fun _ _ => true) = t.readyCall? fun _ _ => true := by
    funext p
    rw [← readyCall?_bare, h, readyCall?_bare]
  have hreplied : (s.repliedCall? fun r => some (network r))
      = t.repliedCall? fun r => some (network r) := by
    funext p
    rw [← repliedCall?_bare, h, repliedCall?_bare]
  have hscheduler : s.readyScheduler? env = t.readyScheduler? env := by
    rw [← readyScheduler?_bare, h, readyScheduler?_bare]
  rw [next?_eq, next?_eq, readyTask?_of_checked hs, readyTask?_of_checked ht, hexchangers, hready,
    hreplied, hscheduler, repliedTask?_of_checked hs, repliedTask?_of_checked ht]

/-- Two services that have gone the same way, but for the outcome of a check of the server's
health. -/
inductive Alike (s t : Services) : Prop where
  /-- They are the same. -/
  | same (h : s = t)
  /-- The check is over, with an outcome of its own in each. -/
  | checked (hs : Checked s) (ht : Checked t) (h : s.bare = t.bare)

theorem Alike.bare_eq (h : Alike s t) : s.bare = t.bare := by
  cases h with
  | same h => rw [h]
  | checked _ _ h => exact h

/-- A check that is over stays over. -/
theorem Checked.step (h : Checked s) (he : e.isOwn = true) (env : Surroundings) :
    Checked (s.step env e).1 := by
  obtain ⟨outcome, hone⟩ := h
  have hchange := change_step env s e
  have hsize := hchange.size_tasks he
  rw [hone] at hsize
  have hc : s.tasks[0]? = some ⟨.health, .finished outcome⟩ := by rw [hone]; rfl
  refine ⟨outcome, tasks_eq_singleton hsize ?_⟩
  rcases hchange.onward hc with ⟨hsame, -⟩ | ⟨next, -, honward⟩
  · exact hsame
  · generalize (s.step env e).2 = new at honward
    cases honward with
    | sends hstage | lacks hstage => rcases hstage with ⟨hstage, -⟩ | hstage <;> cases hstage

theorem Alike.step (h : Alike s t) (he : e.isOwn = true) (env : Surroundings) :
    Alike (s.step env e).1 (t.step env e).1 ∧
      apart (s.step env e).2 = apart (t.step env e).2 := by
  refine ⟨?_, apart_step_eq h.bare_eq env e⟩
  cases h with
  | same h => exact .same (by rw [h])
  | checked hs ht h => exact .checked (hs.step he env) (ht.step he env) (bare_step_congr h env e)

/-- Where the replies to the check part, the check is over in both. -/
theorem alike_reply {r : Request} (hone : s.tasks = #[⟨.health, .exchanging r⟩])
    (env : Surroundings) (one other : Reply) :
    Alike (s.step env (.reply 0 one)).1 (s.step env (.reply 0 other)).1 := by
  have hchecked : ∀ reply, Checked (s.step env (.reply 0 reply)).1 := by
    intro reply
    refine ⟨.checked (Health.conclude r.url reply), ?_⟩
    simp [Services.step, receive, hone, Errand.conclude?, finish, enter]
  refine .checked (hchecked one) (hchecked other) ?_
  exact (bare_receive s 0 one).trans (bare_receive s 0 other).symm

/-- **One turn over two networks**: there is one over both or over none, and it keeps what has gone
the same way alike. -/
theorem Alike.turn (h : Alike s t) (hs : Checking s) (hn : RepliesAlike s.settings first second)
    (env : Surroundings) :
    s.turn first env = none ∧ t.turn second env = none ∨
      ∃ e e', e.isOwn = true ∧ e'.isOwn = true ∧ s.next? first env = some e ∧
        t.next? second env = some e' ∧ Alike (s.step env e).1 (t.step env e').1 ∧
          apart (s.step env e).2 = apart (t.step env e').2 := by
  have htogether : s.next? first env = t.next? second env →
      s.turn first env = none ∧ t.turn second env = none ∨
        ∃ e e', e.isOwn = true ∧ e'.isOwn = true ∧ s.next? first env = some e ∧
          t.next? second env = some e' ∧ Alike (s.step env e).1 (t.step env e').1 ∧
            apart (s.step env e).2 = apart (t.step env e').2 := by
    intro heq
    cases hnext : s.next? first env with
    | none =>
      refine .inl ⟨?_, ?_⟩
      · rw [Services.turn, hnext]
        rfl
      · rw [Services.turn, ← heq, hnext]
        rfl
    | some e =>
      have he := isOwn_next? hnext
      exact .inr ⟨e, e, he, he, rfl, by rw [← heq, hnext], h.step he env⟩
  rcases next?_congr hs hn env with heq | ⟨r, hone, hfirst, hsecond⟩
  · cases h with
    | same h => exact htogether (by rw [heq, h])
    | checked hchecked ht h => exact htogether (by rw [heq, next?_of_checked hchecked ht h])
  · cases h with
    | same h =>
      subst h
      refine .inr ⟨_, _, rfl, rfl, hfirst, hsecond, alike_reply hone env _ _, ?_⟩
      rw [(change_step env s _).apart_of_task rfl, (change_step env s _).apart_of_task rfl]
    | checked hchecked =>
      obtain ⟨outcome, hone'⟩ := hchecked
      cases hone.symm.trans hone'

/-- A check that is over counts nothing among the steps that are left. -/
theorem stepsLeft_of_checked (h : Checked s) : s.stepsLeft = s.withoutTasks.stepsLeft := by
  obtain ⟨outcome, hone⟩ := h
  simp [stepsLeft, withoutTasks, hone, Errand.Stage.stepsLeft]

theorem Alike.stepsLeft_eq (h : Alike s t) : s.stepsLeft = t.stepsLeft := by
  cases h with
  | same h => rw [h]
  | checked hs ht h =>
    rw [stepsLeft_of_checked hs, stepsLeft_of_checked ht, withoutTasks_eq_of_bare h]

/-- **What happens by itself over two networks keeps alike what has gone the same way.** -/
theorem Alike.exhaust (h : Alike s t) (hs : Checking s) (hn : RepliesAlike s.settings first second)
    (env : Surroundings) (fuel : Nat) :
    Alike (VaultTokens.exhaust (Services.turn first env) fuel s).1
        (VaultTokens.exhaust (Services.turn second env) fuel t).1 ∧
      Checking (VaultTokens.exhaust (Services.turn first env) fuel s).1 ∧
      (VaultTokens.exhaust (Services.turn first env) fuel s).1.settings = s.settings ∧
      apart (VaultTokens.exhaust (Services.turn first env) fuel s).2
        = apart (VaultTokens.exhaust (Services.turn second env) fuel t).2 := by
  induction fuel generalizing s t with
  | zero => exact ⟨h, hs, rfl, rfl⟩
  | succ fuel ih =>
    rcases h.turn hs hn env with ⟨hfirst, hsecond⟩ | ⟨e, e', he, -, hnext, hnext', halike, hsame⟩
    · rw [exhaust_of_none hfirst, exhaust_of_none hsecond]
      exact ⟨h, hs, rfl, rfl⟩
    · have hfirst : s.turn first env = some (s.step env e) := by rw [Services.turn, hnext]; rfl
      have hsecond : t.turn second env = some (t.step env e') := by rw [Services.turn, hnext']; rfl
      have hsettings := (change_step env s e).settings_eq
      obtain ⟨hrest, hchecking, hsettings', hmore⟩ :=
        ih halike (hs.step he env) (by rw [hsettings]; exact hn)
      simp only [VaultTokens.exhaust, hfirst, hsecond, apart_append]
      exact ⟨hrest, hchecking, hsettings'.trans hsettings, by rw [hsame, hmore]⟩

end Services

end VaultTokens
