import VaultTokens.Proofs.ScheduledCalls

/-!
# Where calls come from

What happens to a provider among the services is brought about by an event of the services. `Brings`
lists the ways: a call takes its step or is replied to, a scheduler or an errand begins a call, and
a scheduler that is stopped gives up the one that it waits for. There is no other way, so that every
call was begun by a scheduler whose timer went off or by an errand that asked for it, at a moment
that can be named.

## Main results

* `brings_step` — what an event brings to a provider
* `exists_begin` — every call was begun by a scheduler or by an errand
* `exists_begin_of_sent` — so was every call that has sent a request
-/

namespace VaultTokens

/-! ### The number of calls -/

namespace Authenticator

variable {m : Method} {env : Surroundings} {a b : Authenticator} {e : Event} {new : List Notice}

/-- Whether an event begins a call. -/
def Event.isBegin : Event → Bool
  | .begin _ => true
  | _ => false

theorem Change.size_calls (hchange : Change m env a e b new) (he : e.isBegin = false) :
    b.calls.size = a.calls.size := by
  cases hchange with
  | begins => cases he
  | nothing => rfl
  | _ => exact size_calls_enter ..

/-- There is one call more exactly after one has begun. -/
theorem size_calls_step (m : Method) (env : Surroundings) (a : Authenticator) (e : Event) :
    (a.step m env e).1.calls.size = a.calls.size + if e.isBegin then 1 else 0 := by
  cases e with
  | begin d => exact Array.size_push _
  | _ => exact (change_step m env a _).size_calls rfl

/-- Where calls are given up and nothing else happens, nothing is let known and no call begins. -/
theorem run_of_cancels {own : List (Surroundings × Event)} (h : ∀ x ∈ own, ∃ i, x.2 = .cancel i)
    (m : Method) (a : Authenticator) :
    (a.run m own).2 = [] ∧ (a.run m own).1.calls.size = a.calls.size := by
  induction own generalizing a with
  | nil => exact ⟨rfl, rfl⟩
  | cons x rest ih =>
    obtain ⟨env, e⟩ := x
    obtain ⟨i, rfl⟩ : ∃ i, e = .cancel i := h _ List.mem_cons_self
    obtain ⟨hsilent, hsize⟩ := ih (fun y hy => h y (List.mem_cons_of_mem _ hy)) (a.cancel i)
    exact ⟨hsilent, hsize.trans (size_calls_step m env a (.cancel i))⟩

/-- Only a call that has begun sends anything. -/
theorem lt_size_of_sent (m : Method) (a : Authenticator) (events : List (Surroundings × Event)) :
    ∀ i r, .sent i r ∈ (a.run m events).2 → i < (a.run m events).1.calls.size := by
  have hsize : ∀ {env e b b' new}, Change m env b e b' new → b.calls.size ≤ b'.calls.size := by
    intro env e b b' new hchange
    cases hchange with
    | begins d => exact Nat.le_of_lt (by simp)
    | nothing => exact Nat.le_refl _
    | _ => exact Nat.le_of_eq (size_calls_enter ..).symm
  refine run_induction (fun b past => ∀ i r, .sent i r ∈ past → i < b.calls.size) ?_
    (fun _ _ hr => by cases hr)
  rintro env e - b b' past new hchange h i r hr
  rcases List.mem_append.mp hr with hr | hr
  · exact Nat.lt_of_lt_of_le (h i r hr) (hsize hchange)
  · refine Nat.lt_of_lt_of_le ?_ (hsize hchange)
    cases hchange with
    | sends hc =>
      cases List.mem_singleton.mp hr
      exact (Array.getElem?_eq_some_iff.mp hc).1
    | nothing | begins | looks | passes | joins | turns | yields => cases hr
    | serves | enters | lacks | hears | records | leaves | reads => cases List.mem_singleton.mp hr

end Authenticator

/-! ### What an event brings to a provider -/

namespace Services

variable {s t u : Services} {env : Surroundings} {e : Event} {p : Exchanger} {new : List Notice}

/-- The ways in which an event of the services makes something happen to a provider. -/
inductive Brings (s : Services) (p : Exchanger) : Event → Authenticator.Event → Prop where
  /-- A call takes its next step. -/
  | advance (call : Nat) : Brings s p (.advance p call) (.advance call)
  /-- The reply to the request of a call arrives. -/
  | deliver (call : Nat) (reply : Reply) : Brings s p (.deliver p call reply) (.reply call reply)
  /-- The timer of a scheduler has gone off. -/
  | fire {k : Nat} {scheduler : Renewal.Scheduler Nat}
    (hk : s.schedulers[k]? = some (p, scheduler)) : Brings s p (.fire k) (.begin .login)
  /-- An errand asks for a login or for the token. -/
  | proceed {i : Nat} {errand : Errand} {name : String} {demand : Authenticator.Demand}
    (hc : s.tasks[i]? = some ⟨errand, .begun⟩)
    (hd : errand.demand? s.settings.method = some (name, demand))
    (hr : s.registry.find? name = some (.provided p)) : Brings s p (.proceed i) (.begin demand)
  /-- A scheduler is stopped that waits for a call. -/
  | stop {k call : Nat} {scheduler : Renewal.Scheduler Nat}
    (hk : s.schedulers[k]? = some (p, scheduler)) (hcall : scheduler.flight? = some call) :
    Brings s p (.stop k) (.cancel call)
  /-- Every scheduler is stopped. -/
  | shutdown {k call : Nat} {scheduler : Renewal.Scheduler Nat}
    (hk : s.schedulers[k]? = some (p, scheduler)) (hcall : scheduler.flight? = some call) :
    Brings s p .shutdown (.cancel call)

/-- Some events of a provider are brought about by an event of the services: one at most, unless
calls are given up. -/
structure Brought (env : Surroundings) (s : Services) (p : Exchanger) (e : Event)
    (own : List (Surroundings × Authenticator.Event)) : Prop where
  /-- They are brought about, where and when the event happens. -/
  brings : ∀ x ∈ own, x.1 = env ∧ Brings s p e x.2
  /-- There is one at most, or calls are given up. -/
  one : own.length ≤ 1 ∨ ∀ x ∈ own, ∃ call, x.2 = .cancel call

/-- One event is brought about, or calls are given up and nothing else happens. -/
theorem Brought.cases {own : List (Surroundings × Authenticator.Event)}
    (h : Brought env s p e own) :
    (∃ x, own = [(env, x)] ∧ Brings s p e x) ∨ ∀ x ∈ own, ∃ call, x.2 = .cancel call := by
  rcases h.one with hone | hcancels
  · cases own with
    | nil => exact .inr (List.forall_mem_nil _)
    | cons x rest =>
      obtain ⟨env', e'⟩ := x
      obtain rfl : rest = [] :=
        List.eq_nil_of_length_eq_zero (Nat.le_zero.mp (Nat.le_of_succ_le_succ hone))
      obtain ⟨rfl, hbrings⟩ := h.brings _ List.mem_cons_self
      exact .inl ⟨e', rfl, hbrings⟩
  · exact .inr hcancels

theorem brought_nil (env : Surroundings) (s : Services) (p : Exchanger) (e : Event) :
    Brought env s p e [] :=
  ⟨List.forall_mem_nil _, .inl (Nat.zero_le 1)⟩

/-- What is brought to one provider is not brought to the others. -/
theorem brought_if {q : Exchanger} {own : Authenticator.Event} (h : Brings s q e own) :
    Brought env s p e (if p = q then [(env, own)] else []) := by
  by_cases hp : p = q
  · subst hp
    rw [if_pos rfl]
    refine ⟨fun x hx => ?_, .inl (Nat.le_refl 1)⟩
    obtain rfl := List.mem_singleton.mp hx
    exact ⟨rfl, h⟩
  · rw [if_neg hp]
    exact brought_nil ..

theorem provider?_setScheduler (s : Services) (k : Nat) (scheduler : Renewal.Scheduler Nat)
    (p : Exchanger) : (s.setScheduler k scheduler).provider? p = s.provider? p := by
  rcases p with (_ | _) | _ <;> rfl

/-- What is done with a scheduler is nothing to a provider. -/
theorem Traces.setScheduler {own : List (Surroundings × Authenticator.Event)}
    (h : Traces p own s t new) (k : Nat) (scheduler : Renewal.Scheduler Nat) :
    Traces p own s (t.setScheduler k scheduler) new :=
  ⟨(provider?_setScheduler ..).trans h.provider, h.notices⟩

/-- The call to a provider that a scheduler gives back when something is done with it. -/
def givenBack (s : Services) (p : Exchanger)
    (f : Renewal.Scheduler Nat → Renewal.Scheduler Nat × Option Nat) (k : Nat) : Option Nat :=
  s.schedulers[k]?.bind fun entry => if entry.1 = p then (f entry.2).2 else none

theorem givenBack_eq_some {f : Renewal.Scheduler Nat → Renewal.Scheduler Nat × Option Nat}
    {k call : Nat} : s.givenBack p f k = some call ↔
      ∃ scheduler, s.schedulers[k]? = some (p, scheduler) ∧ (f scheduler).2 = some call := by
  rw [givenBack, Option.bind_eq_some_iff]
  constructor
  · rintro ⟨⟨q, scheduler⟩, hk, hcall⟩
    by_cases hq : q = p
    · subst hq
      exact ⟨scheduler, hk, by simpa using hcall⟩
    · simp [hq] at hcall
  · rintro ⟨scheduler, hk, hcall⟩
    exact ⟨(p, scheduler), hk, by simpa using hcall⟩

/-- The events of calls that are given up. -/
def cancels (env : Surroundings) (calls : List Nat) : List (Surroundings × Authenticator.Event) :=
  calls.map fun call => (env, .cancel call)

theorem mem_cancels {calls : List Nat} {x : Surroundings × Authenticator.Event} :
    x ∈ cancels env calls ↔ ∃ call ∈ calls, x = (env, .cancel call) := by
  simp [cancels, eq_comm]

/-- **What a command to a scheduler brings to a provider**: the call is given up that it gives
back. -/
theorem traces_command (env : Surroundings) (s : Services) (k : Nat)
    (f : Renewal.Scheduler Nat → Renewal.Scheduler Nat × Option Nat) (p : Exchanger) :
    Traces p (cancels env (s.givenBack p f k).toList) s (s.command env k f) [] := by
  rw [givenBack]
  cases hk : s.schedulers[k]? with
  | none =>
    have hcommand : s.command env k f = s := by rw [command, hk]
    rw [hcommand]
    exact .still rfl rfl
  | some entry =>
    obtain ⟨q, scheduler⟩ := entry
    rw [Option.bind_some]
    cases hf : f scheduler with
    | mk next back =>
      cases back with
      | none =>
        have hcommand : s.command env k f = s.setScheduler k next := by
          rw [command, hk]
          simp only [hf]
        rw [hcommand, ite_self]
        exact Traces.setScheduler (.still rfl rfl) k next
      | some call =>
        have hcommand : s.command env k f
            = ((s.within env q (.cancel call)).1).setScheduler k next := by
          rw [command, hk]
          simp only [hf]
        have htraces := traces_within env s q p (.cancel call)
        rw [within_cancel_silent] at htraces
        rw [hcommand]
        by_cases hq : q = p
        · subst hq
          rw [if_pos rfl] at htraces ⊢
          exact htraces.setScheduler k next
        · rw [if_neg (Ne.symm hq)] at htraces
          rw [if_neg hq]
          exact htraces.setScheduler k next

/-- A start gives nothing back. -/
theorem snd_spawn (scheduler : Renewal.Scheduler Nat) (due : Nat) :
    (scheduler.spawn due).2 = none := by
  cases hrun : scheduler.isRunning with
  | true => rw [Renewal.Scheduler.spawn_of_isRunning hrun]
  | false => exact (Renewal.Scheduler.spawn_of_not_isRunning hrun due).1

theorem traces_start (env : Surroundings) (s : Services) (k : Nat)
    {f : Renewal.Scheduler Nat → Renewal.Scheduler Nat × Option Nat}
    (hf : ∀ scheduler, (f scheduler).2 = none) (p : Exchanger) :
    Traces p [] s (s.command env k f) [] := by
  have hnone : s.givenBack p f k = none := by
    rw [Option.eq_none_iff_forall_ne_some]
    intro call hcall
    obtain ⟨scheduler, -, hsome⟩ := givenBack_eq_some.mp hcall
    cases (hf scheduler).symm.trans hsome
  have htraces := traces_command env s k f p
  rwa [hnone] at htraces

/-- The call to a provider that a scheduler waits for. -/
def flight? (s : Services) (p : Exchanger) (k : Nat) : Option Nat :=
  s.givenBack p Renewal.Scheduler.stop k

theorem flight?_eq_some {k call : Nat} : s.flight? p k = some call ↔
    ∃ scheduler, s.schedulers[k]? = some (p, scheduler) ∧ scheduler.flight? = some call := by
  rw [flight?, givenBack_eq_some]
  simp only [Renewal.Scheduler.stop, Renewal.Scheduler.snd_release]

theorem getElem?_schedulers_stop_of_ne (env : Surroundings) (s : Services) {j k : Nat}
    (h : k ≠ j) : (s.stop env k).schedulers[j]? = s.schedulers[j]? := by
  rw [stop, schedulers_command, List.getElem?_modify]
  simp [h]

/-- **What stopping some schedulers brings to a provider**: the calls are given up that they wait
for. -/
theorem traces_stops (env : Surroundings) (s : Services) (p : Exchanger) {ks : List Nat}
    (hks : ks.Nodup) :
    Traces p (cancels env (ks.filterMap (s.flight? p))) s (ks.foldl (stop env) s) [] := by
  have key : ∀ t : Services, (∀ k ∈ ks, t.schedulers[k]? = s.schedulers[k]?) →
      Traces p (cancels env (ks.filterMap (s.flight? p))) t (ks.foldl (stop env) t) [] := by
    induction ks with
    | nil => exact fun t _ => .still rfl rfl
    | cons k ks ih =>
      obtain ⟨hk, hks⟩ := List.nodup_cons.mp hks
      intro t ht
      have hrest := ih hks (t.stop env k) fun j hj => by
        have hne : k ≠ j := by
          rintro rfl
          exact hk hj
        rw [getElem?_schedulers_stop_of_ne env t hne, ht j (List.mem_cons_of_mem _ hj)]
      have hfirst := traces_command env t k Renewal.Scheduler.stop p
      have hflight : t.givenBack p Renewal.Scheduler.stop k = s.flight? p k := by
        rw [flight?, givenBack, givenBack, ht k List.mem_cons_self]
      rw [hflight] at hfirst
      have hsplit : cancels env ((k :: ks).filterMap (s.flight? p))
          = cancels env (s.flight? p k).toList ++ cancels env (ks.filterMap (s.flight? p)) := by
        rw [cancels, cancels, cancels, List.filterMap_cons]
        cases s.flight? p k <;> rfl
      rw [hsplit]
      exact hfirst.trans hrest
  exact key s fun _ _ => rfl

/-- A step of an errand brings to a provider the call that it asks for. -/
theorem Onward.brought {i : Nat} {errand : Errand} {stage next : Errand.Stage}
    (h : Onward s i errand e stage next new) (hc : s.tasks[i]? = some ⟨errand, stage⟩)
    (env : Surroundings) (p : Exchanger) : Brought env s p e (demands env p new) := by
  cases h with
  | misses | sends | lacks | hears => exact brought_nil ..
  | asksFixed hd hr hs =>
    rw [show demands env p (_ :: ending i _) = demands env p (ending i _) from rfl,
      demands_ending]
    exact brought_nil ..
  | resumes =>
    rw [demands_ending]
    exact brought_nil ..
  | asksProvider hd hr hg =>
    rename_i name demand q g
    have hone : demands env p [.asked i (.provided q) demand]
        = if p = q then [(env, .begin demand)] else [] := by
      by_cases hp : p = q
      · simp [demands, hp]
      · simp [demands, hp, Ne.symm hp]
    rw [hone]
    exact brought_if (.proceed hc hd hr)

/-- **What an event of the services brings to a provider.** -/
theorem brings_step (env : Surroundings) (s : Services) (e : Event) (p : Exchanger) :
    ∃ own, Traces p own s (s.step env e).1 (s.step env e).2 ∧ Brought env s p e own := by
  have ofTask : ∀ {e : Event} {i : Nat}, e.task? = some i →
      ∃ own, Traces p own s (s.step env e).1 (s.step env e).2 ∧ Brought env s p e own := by
    intro e i hi
    have hchange := change_step env s e
    generalize (s.step env e).1 = t, (s.step env e).2 = new at hchange ⊢
    cases hchange with
    | nothing => exact ⟨[], .still rfl rfl, brought_nil ..⟩
    | asks | registers => cases hi
    | schedules he ht => cases (Event.task?_of_isScheduling he).symm.trans hi
    | goes hc honward ht => exact ⟨_, honward.traces ht p, honward.brought hc env p⟩
  cases e with
  | ask errand =>
    exact ⟨[], .still (by rcases p with (_ | _) | _ <;> rfl) rfl, brought_nil ..⟩
  | register name strategy =>
    exact ⟨[], .still (by rcases p with (_ | _) | _ <;> rfl) rfl, brought_nil ..⟩
  | proceed i => exact ofTask rfl
  | reply i reply => exact ofTask rfl
  | advance q call => exact ⟨_, traces_within env s q p _, brought_if (.advance call)⟩
  | deliver q call reply => exact ⟨_, traces_within env s q p _, brought_if (.deliver call reply)⟩
  | fire k =>
    rw [step, fire]
    split
    · exact ⟨[], .still rfl rfl, brought_nil ..⟩
    · rename_i q scheduler hk
      split
      · exact ⟨_, (traces_within env s q p _).setScheduler k _, brought_if (.fire hk)⟩
      · exact ⟨[], .still rfl rfl, brought_nil ..⟩
  | settle k =>
    rw [step, settle]
    split
    · exact ⟨[], .still rfl rfl, brought_nil ..⟩
    · split
      · refine ⟨[], .still (provider?_setScheduler ..) ?_, brought_nil ..⟩
        refine List.filterMap_eq_nil_iff.mpr fun n hn => ?_
        obtain ⟨f, -, rfl⟩ := Option.map_eq_some_iff.mp (Option.mem_toList.mp hn)
        rfl
      · exact ⟨[], .still rfl rfl, brought_nil ..⟩
  | start k => exact ⟨[], traces_start env s k (fun scheduler => snd_spawn ..) p, brought_nil ..⟩
  | startFrom k lease =>
    refine ⟨[], traces_start env s k (fun scheduler => ?_) p, brought_nil ..⟩
    cases lease with
    | none => rfl
    | some lease => exact snd_spawn ..
  | stop k =>
    refine ⟨_, traces_command env s k Renewal.Scheduler.stop p, fun x hx => ?_, .inl ?_⟩
    · obtain ⟨call, hcall, rfl⟩ := mem_cancels.mp hx
      obtain ⟨scheduler, hk, hflight⟩ := flight?_eq_some.mp (Option.mem_toList.mp hcall)
      exact ⟨rfl, .stop hk hflight⟩
    · rw [cancels, List.length_map]
      exact Option.length_toList_le
  | shutdown =>
    refine ⟨_, traces_stops env s p List.nodup_range, fun x hx => ?_, .inr fun x hx => ?_⟩
    · obtain ⟨call, hcall, rfl⟩ := mem_cancels.mp hx
      obtain ⟨k, -, hk⟩ := List.mem_filterMap.mp hcall
      obtain ⟨scheduler, hk, hflight⟩ := flight?_eq_some.mp hk
      exact ⟨rfl, .shutdown hk hflight⟩
    · obtain ⟨call, -, rfl⟩ := mem_cancels.mp hx
      exact ⟨call, rfl⟩

/-! ### Who has begun a call -/

theorem nextCall?_eq_some {n : Nat} :
    s.nextCall? p = some n ↔ ∃ g, s.provider? p = some g ∧ g.strategy.calls.size = n := by
  rw [nextCall?, Option.map_eq_some_iff]

/-- A call that was not there before an event and is there after it was begun by the event. -/
theorem exists_begin_step (env : Surroundings) (s : Services) (e : Event) {call n : Nat}
    (hs : s.nextCall? p = some n) (hn : n ≤ call)
    (ht : ∃ n', (s.step env e).1.nextCall? p = some n' ∧ call < n') :
    s.nextCall? p = some call ∧ ∃ demand, Brings s p e (.begin demand) := by
  obtain ⟨own, htraces, hbrought⟩ := brings_step env s e p
  obtain ⟨g, hg, rfl⟩ := nextCall?_eq_some.mp hs
  obtain ⟨n', hn', hlt⟩ := ht
  have hafter : (s.step env e).1.nextCall? p = some (g.after own).strategy.calls.size := by
    rw [nextCall?, htraces.provider, hg]
    rfl
  obtain rfl := Option.some.inj (hn'.symm.trans hafter)
  rcases hbrought.cases with ⟨e', rfl, hbrings⟩ | hcancels
  · have hsize : (g.after [(env, e')]).strategy.calls.size
        = g.strategy.calls.size + if e'.isBegin then 1 else 0 :=
      Authenticator.size_calls_step g.method env g.strategy e'
    cases e' with
    | begin demand =>
      have hmore : (g.after [(env, .begin demand)]).strategy.calls.size
          = g.strategy.calls.size + 1 := hsize
      have hcall : g.strategy.calls.size = call := by omega
      exact ⟨by rw [hs, hcall], demand, hbrings⟩
    | advance | reply | cancel =>
      have hsame : _ = g.strategy.calls.size + 0 := hsize
      omega
  · have hsame : (g.after own).strategy.calls.size = g.strategy.calls.size :=
      (Authenticator.run_of_cancels hcancels g.method g.strategy).2
    omega

/-- **Every call was begun by a scheduler or by an errand.** -/
theorem exists_begin (s : Services) (events : List (Surroundings × Event)) {call n : Nat}
    (hs : s.nextCall? p = some n) (hn : n ≤ call)
    (ht : ∃ n', (s.run events).1.nextCall? p = some n' ∧ call < n') :
    ∃ before env e after demand, events = before ++ (env, e) :: after ∧
      (s.run before).1.nextCall? p = some call ∧ Brings (s.run before).1 p e (.begin demand) := by
  induction events generalizing s n with
  | nil =>
    obtain ⟨n', hn', hlt⟩ := ht
    obtain rfl := Option.some.inj (hs.symm.trans hn')
    exact absurd hlt (Nat.not_lt_of_le hn)
  | cons x rest ih =>
    obtain ⟨env, e⟩ := x
    obtain ⟨own, htraces, -⟩ := brings_step env s e p
    obtain ⟨g, hg, rfl⟩ := nextCall?_eq_some.mp hs
    have hnext : (s.step env e).1.nextCall? p = some (g.after own).strategy.calls.size := by
      rw [nextCall?, htraces.provider, hg]
      rfl
    by_cases hlt : call < (g.after own).strategy.calls.size
    · obtain ⟨hcall, demand, hbrings⟩ := exists_begin_step env s e hs hn ⟨_, hnext, hlt⟩
      exact ⟨[], env, e, rest, demand, rfl, hcall, hbrings⟩
    · obtain ⟨before, env', e', after, demand, rfl, hcall, hbrings⟩ :=
        ih (s.step env e).1 hnext (Nat.le_of_not_lt hlt) ht
      exact ⟨(env, e) :: before, env', e', after, demand, rfl, hcall, hbrings⟩

/-- **Every call that has sent a request was begun by a scheduler or by an errand**, if it was not
there from the beginning. -/
theorem exists_begin_of_sent (s : Services) (events : List (Surroundings × Event)) {call n : Nat}
    {r : Request} (hs : s.nextCall? p = some n) (hn : n ≤ call)
    (hsent : .within p (.sent call r) ∈ (s.run events).2) :
    ∃ before env e after demand, events = before ++ (env, e) :: after ∧
      (s.run before).1.nextCall? p = some call ∧ Brings (s.run before).1 p e (.begin demand) := by
  obtain ⟨own, htraces⟩ := traces_run s events p
  obtain ⟨g, hg, rfl⟩ := nextCall?_eq_some.mp hs
  have hmem := mem_innards hsent
  rw [htraces.notices, hg] at hmem
  refine exists_begin s events hs hn ⟨_, ?_, Authenticator.lt_size_of_sent g.method _ own _ _ hmem⟩
  rw [nextCall?, htraces.provider, hg]
  rfl

end Services

end VaultTokens
