import VaultTokens.Renewal.Simulation

/-!
# What can happen in a simulation

A simulation changes in three ways only. Something is done with the scheduler (`Acts`), the next
event of a worker happens (`Happening`), or time passes up to a moment before that. Each of the
first two has few cases, which say everything there is to say about it. An invariant that speaks of
the simulation and of the notices so far holds after a run if all three preserve it.

## Main results

* `acts_act`, `happening_of_next?` — these are all cases
* `runUntil_induction`, `run_induction` — what every change preserves holds after every run
-/

namespace VaultTokens.Renewal

/-! ### The login under way -/

namespace Scheduler

variable {Login : Type} {s : Scheduler Login} {k : Nat} {w : Worker Login}

/-- The login that the worker has under way that is kept. -/
def flight? (s : Scheduler Login) : Option Login :=
  s.kept.bind fun k => (s.worker? k).bind Worker.underWay?

theorem snd_release (s : Scheduler Login) : s.release.2 = s.flight? := by
  rw [release, flight?]
  split
  · rename_i hkept
    rw [hkept]
    rfl
  · rename_i k hkept
    rw [hkept]
    rfl

theorem flight?_of_worker? (h : s.Sole) (hw : s.worker? k = some w) :
    s.flight? = w.underWay? := by
  rw [flight?, h k w hw, Option.bind_some, hw, Option.bind_some]

theorem flight?_put (h : s.Sole) (hw : s.worker? k = some w) (w' : Option (Worker Login)) :
    (s.put k w').flight? = w'.bind Worker.underWay? := by
  have hkept : (s.put k w').kept = some k := h k w hw
  rw [flight?, hkept, Option.bind_some, worker?_put_self (lt_of_worker? hw)]

theorem flight?_of_none (h : ∀ k, s.worker? k = none) : s.flight? = none := by
  rw [flight?, Option.bind_eq_none_iff]
  intro k _
  rw [h k]
  rfl

theorem flight?_spawn (h : s.Sole) (hs : s.isRunning = false) (due : Nat) :
    (s.spawn due).1.flight? = none := by
  have hlast := worker?_spawn h hs due s.release.1.workers.length
  rw [if_pos rfl] at hlast
  rw [flight?_of_worker? (sole_spawn h due) hlast]
  rfl

/-- No login is under way right after one. -/
theorem underWay?_afterLogin (p : RenewalPolicy) (now : Nat) (failures : UInt32)
    (outcome : Except Failure (Option UInt64)) :
    (afterLogin p now failures outcome : Option (Worker Login)).bind Worker.underWay? = none := by
  cases outcome with
  | ok lease => cases lease <;> rfl
  | error f =>
    rw [afterLogin]
    split <;> rfl

theorem filterMap_zipIdx_of_none {α β : Type} {f : α → Option β} {l : List α}
    (h : ∀ x ∈ l, f x = none) (n : Nat) :
    (l.zipIdx n).filterMap (fun x => (f x.1).map (x.2, ·)) = [] := by
  refine List.filterMap_eq_nil_iff.mpr ?_
  rintro ⟨x, k⟩ hx
  rw [h x (List.fst_mem_of_mem_zipIdx hx)]
  rfl

/-- What is found in one place only is all that is found. -/
theorem filterMap_zipIdx_of_unique {α β : Type} {f : α → Option β} {l : List α} {k : Nat} {x : α}
    (hk : l[k]? = some x) (h : ∀ j y, l[j]? = some y → j ≠ k → f y = none) (n : Nat) :
    (l.zipIdx n).filterMap (fun x => (f x.1).map (x.2, ·)) = ((f x).map (n + k, ·)).toList := by
  induction l generalizing k n with
  | nil => cases hk
  | cons y rest ih =>
    rw [List.zipIdx_cons, List.filterMap_cons]
    cases k with
    | zero =>
      obtain rfl : y = x := Option.some.inj hk
      have hrest := filterMap_zipIdx_of_none (l := rest) (f := f) (fun z hz => by
        obtain ⟨j, hj⟩ := List.getElem?_of_mem hz
        exact h (j + 1) z (by rwa [List.getElem?_cons_succ]) (Nat.succ_ne_zero j)) (n + 1)
      rw [hrest]
      cases f y <;> rfl
    | succ k =>
      rw [h 0 y rfl (Nat.succ_ne_zero k).symm, Option.map_none,
        ih (by rwa [List.getElem?_cons_succ] at hk) (fun j z hj hne =>
          h (j + 1) z (by rwa [List.getElem?_cons_succ]) (by omega)),
        Nat.add_assoc, Nat.add_comm 1 k]

/-- The only login under way is the one of the worker that is kept. -/
theorem underWay_eq (h : s.Sole) : s.underWay.map Prod.snd = s.flight?.toList := by
  have hnone : ∀ {j v}, s.workers[j]? = some v → s.kept ≠ some j →
      v.bind Worker.underWay? = none := by
    intro j v hj hkept
    cases v with
    | none => rfl
    | some v => exact absurd (h j v (by rw [worker?_eq, hj]; rfl)) hkept
  rw [underWay]
  cases hk : s.kept.bind fun k => s.workers[k]? with
  | none =>
    rw [filterMap_zipIdx_of_none 
      (f := fun w : Option (Worker Login) => w.bind Worker.underWay?) fun v hv => ?_]
    · rw [flight?]
      cases hkept : s.kept with
      | none => rfl
      | some k =>
        rw [hkept, Option.bind_some] at hk
        rw [Option.bind_some, worker?_eq, hk]
        rfl
    · obtain ⟨j, hj⟩ := List.getElem?_of_mem hv
      refine hnone hj fun hkept => ?_
      rw [hkept, Option.bind_some, hj] at hk
      cases hk
  | some v =>
    obtain ⟨k, hkept, hv⟩ := Option.bind_eq_some_iff.mp hk
    have hunique : ∀ j y, s.workers[j]? = some y → j ≠ k → y.bind Worker.underWay? = none :=
      fun j y hj hne => hnone hj fun hkept' => hne (Option.some.inj (hkept'.symm.trans hkept))
    rw [filterMap_zipIdx_of_unique (f := fun w : Option (Worker Login) => w.bind Worker.underWay?)
      hv hunique]
    rw [flight?, hkept, Option.bind_some, worker?_eq, hv]
    cases v with
    | none => rfl
    | some v => cases hv : v.underWay? <;> simp [hv]

end Scheduler

namespace Simulation

variable {s s' : Simulation} {past new : List Notice} {moment k t : Nat}

/-! ### What notices tell -/

/-- When logins began, in order. -/
def begins (notices : List Notice) : List Nat :=
  notices.filterMap fun n =>
    match n with
    | .began moment => some moment
    | _ => none

/-- When logins ended, and how, in order. -/
def endings (notices : List Notice) : List (Nat × Except Failure (Option UInt64)) :=
  notices.filterMap fun n =>
    match n with
    | .ended moment outcome => some (moment, outcome)
    | _ => none

/-- When failures were reported, and which, in order. -/
def reported (notices : List Notice) : List (Nat × Failure) :=
  notices.filterMap fun n =>
    match n with
    | .reported moment f => some (moment, f)
    | _ => none

/-- The logins under way that were given up, in order. -/
def givenUp (notices : List Notice) : List Flight :=
  notices.filterMap fun n =>
    match n with
    | .gaveUp flight => some flight
    | _ => none

@[simp]
theorem begins_nil : begins [] = [] := rfl

@[simp]
theorem begins_append (past new : List Notice) : begins (past ++ new) = begins past ++ begins new :=
  List.filterMap_append ..

@[simp]
theorem endings_append (past new : List Notice) :
    endings (past ++ new) = endings past ++ endings new :=
  List.filterMap_append ..

@[simp]
theorem reported_append (past new : List Notice) :
    reported (past ++ new) = reported past ++ reported new :=
  List.filterMap_append ..

@[simp]
theorem givenUp_append (past new : List Notice) :
    givenUp (past ++ new) = givenUp past ++ givenUp new :=
  List.filterMap_append ..

@[simp]
theorem begins_gaveUp (flights : List Flight) : begins (flights.map Notice.gaveUp) = [] := by
  induction flights with
  | nil => rfl
  | cons f rest ih => exact ih

@[simp]
theorem endings_gaveUp (flights : List Flight) : endings (flights.map Notice.gaveUp) = [] := by
  induction flights with
  | nil => rfl
  | cons f rest ih => exact ih

@[simp]
theorem givenUp_gaveUp (flights : List Flight) : givenUp (flights.map Notice.gaveUp) = flights := by
  induction flights with
  | nil => rfl
  | cons f rest ih => exact congrArg (f :: ·) ih

/-! ### Events of workers -/

/-- What is reported of the end of a login. -/
def reportOf (reports : Bool) (now : Nat) : Except Failure (Option UInt64) → List Notice
  | .error f => if reports then [.reported now f] else []
  | .ok _ => []

@[simp]
theorem begins_ended (reports : Bool) (now : Nat) (outcome : Except Failure (Option UInt64)) :
    begins (.ended now outcome :: reportOf reports now outcome) = [] := by
  cases outcome <;> cases reports <;> rfl

@[simp]
theorem endings_ended (reports : Bool) (now : Nat) (outcome : Except Failure (Option UInt64)) :
    endings (.ended now outcome :: reportOf reports now outcome) = [(now, outcome)] := by
  cases outcome <;> cases reports <;> rfl

@[simp]
theorem givenUp_ended (reports : Bool) (now : Nat) (outcome : Except Failure (Option UInt64)) :
    givenUp (.ended now outcome :: reportOf reports now outcome) = [] := by
  cases outcome <;> cases reports <;> rfl

/-- What the next event of a worker brings about. -/
inductive Happening (s : Simulation) (moment k : Nat) : Simulation → List Notice → Prop where
  /-- A timer goes off and a login begins. -/
  | begins {failures : UInt32} (hw : s.scheduler.worker? k = some ⟨.timer moment, failures⟩) :
    Happening s moment k
      { s with
          now := max s.now moment
          scheduler := s.scheduler.put k (some ⟨.login
            ⟨max s.now moment + (s.script.headD s.afterwards).takes,
              (s.script.headD s.afterwards).outcome⟩, failures⟩)
          script := s.script.tail }
      [.began (max s.now moment)]
  /-- A login ends. -/
  | ends {failures : UInt32} {outcome : Except Failure (Option UInt64)}
    (hw : s.scheduler.worker? k = some ⟨.login ⟨moment, some outcome⟩, failures⟩) :
    Happening s moment k
      { s with
          now := max s.now moment
          scheduler := s.scheduler.put k
            (Scheduler.afterLogin s.scheduler.policy (max s.now moment) failures outcome) }
      (.ended (max s.now moment) outcome ::
        reportOf s.scheduler.reports (max s.now moment) outcome)

theorem Happening.now_eq (h : Happening s moment k s' new) : s'.now = max s.now moment := by
  cases h <;> rfl

/-- The next event is one of these. -/
theorem happening_of_next? (h : s.next? = some (moment, k)) :
    Happening s moment k (s.happen moment k).1 (s.happen moment k).2 := by
  obtain ⟨⟨wait, failures⟩, hw, hat⟩ := soonest_eq_some h
  have hw' : s.scheduler.worker? k = some ⟨wait, failures⟩ := hw
  rw [happen, hw']
  cases wait with
  | timer due =>
    obtain rfl : due = moment := Option.some.inj hat
    simp only [Scheduler.loginBegun, hw']
    exact .begins hw'
  | login flight =>
    obtain ⟨ends, outcome⟩ := flight
    cases outcome with
    | none => cases hat
    | some outcome =>
      obtain rfl : ends = moment := Option.some.inj hat
      simp only [Scheduler.loginEnded, hw']
      have hends := Happening.ends hw'
      cases outcome with
      | ok lease => exact hends
      | error f =>
        rw [reportOf] at hends
        by_cases hreports : s.scheduler.reports = true
        · rw [if_pos hreports] at hends
          simp only [if_pos hreports]
          exact hends
        · rw [if_neg hreports] at hends
          simp only [if_neg hreports]
          exact hends

/-- **What every event preserves holds until everything due has happened**, and what follows from it
when nothing else is due holds then. -/
theorem runUntil_induction (P Q : Simulation → List Notice → Prop)
    (hhappen : ∀ {s moment k s' past new}, Happening s moment k s' new →
      s.next? = some (moment, k) → moment ≤ t → P s past → P s' (past ++ new))
    (hwait : ∀ {s past}, (∀ moment k, s.next? = some (moment, k) → t < moment) → P s past →
      Q { s with now := max s.now t } past)
    (past : List Notice) (h : P s past) : Q (runUntil t s).1 (past ++ (runUntil t s).2) := by
  fun_induction runUntil t s generalizing past with
  | case1 s hnone =>
    rw [List.append_nil]
    refine hwait (fun moment k hnext => ?_) h
    rw [hnone] at hnext
    cases hnext
  | case2 s moment k hsome hle rest =>
    rename_i ih
    rw [← List.append_assoc]
    exact ih _ (hhappen (happening_of_next? hsome) hsome hle h)
  | case3 s moment k hsome hgt =>
    rw [List.append_nil]
    refine hwait (fun later j hnext => ?_) h
    rw [hsome] at hnext
    obtain ⟨rfl, -⟩ := Prod.mk.inj (Option.some.inj hnext)
    exact Nat.lt_of_not_le hgt

/-- After everything due by a moment has happened, it is that moment and nothing is due by it. -/
theorem runUntil_now (h : s.now ≤ t) :
    (runUntil t s).1.now = t ∧
      ∀ moment k, (runUntil t s).1.next? = some (moment, k) → t < moment := by
  refine ⟨?_, runUntil_next? t s⟩
  refine runUntil_induction (fun s _ => s.now ≤ t) (fun s _ => s.now = t) (fun hh _ hle h => ?_)
    (fun _ h => Nat.max_eq_right h) [] h
  rw [hh.now_eq]
  exact Nat.max_le.mpr ⟨h, hle⟩

/-! ### Steps -/

/-- Whether a step starts a scheduler that does not run. -/
def Step.isStart : Step → Bool
  | .start | .startFrom (some _) => true
  | _ => false

/-- Whether a step ends a scheduler. -/
def Step.isEnd : Step → Bool
  | .stop | .drop => true
  | _ => false

theorem Step.isStart_of_isEnd {x : Step} (h : x.isEnd = true) : x.isStart = false := by
  cases x <;> first | rfl | cases h

/-- When the first login of a worker is due that a step starts. -/
def Step.due (s : Simulation) : Step → Nat
  | .startFrom (some lease) => deadline s.now (nextDelay lease s.scheduler.policy.buffer)
  | _ => s.now

/-- What a step does before anything that is due. -/
inductive Acts (s : Simulation) : Step → Simulation → List Notice → Prop where
  /-- Nothing. -/
  | rests {x : Step} (hx : s.present = true →
      x.isEnd = false ∧ (x.isStart = true → s.scheduler.isRunning = true)) : Acts s x s []
  /-- A new worker is there. -/
  | spawns {x : Step} (hp : s.present = true) (hs : s.scheduler.isRunning = false)
    (hx : x.isStart = true) :
    Acts s x { s with scheduler := (s.scheduler.spawn (x.due s)).1 } []
  /-- The worker is over, and with it the login that it had under way. -/
  | releases {x : Step} (hp : s.present = true) (hx : x.isEnd = true) (present : Bool)
    (hpresent : present = true → x = .stop) (dropped : Nat) :
    Acts s x { s with scheduler := s.scheduler.release.1, present, dropped }
      (s.scheduler.flight?.toList.map Notice.gaveUp)

/-- A step does one of these. -/
theorem acts_act (s : Simulation) (x : Step) : Acts s x (s.act x).1 (s.act x).2 := by
  have starts : ∀ {x due}, s.present = true → x.isEnd = false → x.isStart = true →
      due = x.due s → Acts s x (s.replace (s.scheduler.spawn due)).1
        (s.replace (s.scheduler.spawn due)).2 := by
    rintro x due hp hend hstart rfl
    cases hs : s.scheduler.isRunning with
    | true =>
      rw [Scheduler.spawn_of_isRunning hs]
      exact .rests fun _ => ⟨hend, fun _ => hs⟩
    | false =>
      have hspawn := Scheduler.spawn_of_not_isRunning hs (x.due s)
      rw [replace, hspawn.1]
      exact .spawns hp hs hstart
  have toList_map : ∀ o : Option Flight,
      (o.map Notice.gaveUp).toList = o.toList.map Notice.gaveUp := by
    intro o
    cases o <;> rfl
  by_cases hp : s.present = true
  · cases x with
    | start =>
      simp only [act, if_pos hp]
      exact starts hp rfl rfl rfl
    | startFrom lease =>
      simp only [act, if_pos hp]
      cases lease with
      | none => exact .rests fun _ => ⟨rfl, fun hstart => by cases hstart⟩
      | some lease => exact starts hp rfl rfl rfl
    | stop =>
      simp only [act, if_pos hp, replace, Scheduler.stop, Scheduler.snd_release, toList_map]
      exact .releases hp rfl s.present (fun _ => rfl) _
    | drop =>
      simp only [act, if_pos hp, replace, Scheduler.snd_release, toList_map]
      exact .releases hp rfl false (fun hpresent => by cases hpresent) _
    | sleep nanos =>
      simp only [act, if_pos hp]
      exact .rests fun _ => ⟨rfl, fun hstart => by cases hstart⟩
  · simp only [act, if_neg hp]
    exact .rests fun hp' => absurd hp' hp

theorem Acts.now_eq {x : Step} (h : Acts s x s' new) : s'.now = s.now := by
  cases h <;> rfl

theorem now_le_horizon (s : Simulation) (x : Step) : s.now ≤ s.horizon x := by
  cases x <;> first | exact Nat.le_refl _ | exact Nat.le_add_right ..

theorem step_eq (s : Simulation) (x : Step) :
    s.step x = ((runUntil (s.horizon x) (s.act x).1).1,
      (s.act x).2 ++ (runUntil (s.horizon x) (s.act x).1).2) := rfl

theorem run_cons (s : Simulation) (x : Step) (rest : List Step) :
    s.run (x :: rest) = (((s.step x).1.run rest).1, (s.step x).2 ++ ((s.step x).1.run rest).2) :=
  rfl

theorem run_append (s : Simulation) (before after : List Step) :
    s.run (before ++ after) = (((s.run before).1.run after).1,
      (s.run before).2 ++ ((s.run before).1.run after).2) := by
  induction before generalizing s with
  | nil => rfl
  | cons x rest ih => rw [List.cons_append, run_cons, run_cons, ih, List.append_assoc]

/-- A property that speaks of a simulation and of the notices so far holds after a run if every
change preserves it. -/
theorem run_induction_after (P : Simulation → List Notice → Prop)
    (hacts : ∀ {s x s' past new}, Acts s x s' new → P s past → P s' (past ++ new))
    (hhappen : ∀ {s moment k s' past new}, Happening s moment k s' new → P s past →
      P s' (past ++ new))
    (hwait : ∀ {s t past}, P s past → P { s with now := max s.now t } past) (h : P s past)
    (steps : List Step) : P (s.run steps).1 (past ++ (s.run steps).2) := by
  induction steps generalizing s past with
  | nil =>
    rw [run, List.append_nil]
    exact h
  | cons x rest ih =>
    rw [run_cons, ← List.append_assoc, step_eq, ← List.append_assoc]
    exact ih (runUntil_induction P P (fun hh _ _ => hhappen hh) (fun _ => hwait) _
      (hacts (acts_act s x) h))

/-- **What every change preserves holds after every run.** -/
theorem run_induction (P : Simulation → List Notice → Prop)
    (hacts : ∀ {s x s' past new}, Acts s x s' new → P s past → P s' (past ++ new))
    (hhappen : ∀ {s moment k s' past new}, Happening s moment k s' new → P s past →
      P s' (past ++ new))
    (hwait : ∀ {s t past}, P s past → P { s with now := max s.now t } past) (h : P s [])
    (steps : List Step) : P (s.run steps).1 (s.run steps).2 :=
  run_induction_after P hacts hhappen hwait h steps

end Simulation

end VaultTokens.Renewal
