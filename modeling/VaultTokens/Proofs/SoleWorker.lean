import VaultTokens.Proofs.SimulationRun

/-!
# A scheduler has one worker at most

Whatever is done with a scheduler and however much time passes, no two workers are alive, a worker
that is alive waits for a timer or for a login and not for both, and the scheduler says that it runs
exactly while there is one. A login ends if it is not given up, and it is given up only by a stop or
a drop that finds it under way. From then on nothing happens until the next start.

## Main results

* `Sound.acts`, `Sound.happening` — one worker at most, and none once the scheduler was dropped
* `balanced_run` — every login that began has ended, was given up or is under way
* `run_of_silent` — nothing happens while nobody is alive
* `one_worker` — all of this at any moment of any run
-/

namespace VaultTokens.Renewal

namespace Simulation

variable {s s' : Simulation} {x : Step} {past new : List Notice} {moment k t : Nat}

/-! ### One worker -/

/-- No two workers are alive, and none is once the scheduler was dropped. -/
structure Sound (s : Simulation) : Prop where
  /-- Only the worker that is kept is alive. -/
  sole : s.scheduler.Sole
  /-- Nobody is alive after a drop. -/
  gone : s.present = false → ∀ k, s.scheduler.worker? k = none

theorem sound_initial (policy : RenewalPolicy) (reports : Bool) (script : List Attempt)
    (afterwards : Attempt) : Sound (initial policy reports script afterwards) :=
  ⟨Scheduler.sole_idle policy reports, fun _ _ => rfl⟩

theorem Sound.acts (h : Sound s) (hacts : Acts s x s' new) : Sound s' := by
  cases hacts with
  | rests => exact h
  | spawns hp => exact ⟨Scheduler.sole_spawn h.sole _, fun hp' => absurd (hp.symm.trans hp') nofun⟩
  | releases =>
    exact ⟨Scheduler.sole_release h.sole, fun _ => Scheduler.worker?_release h.sole⟩

/-- A worker that is still alive is not that of a dropped scheduler. -/
theorem Sound.put (h : Sound s) {w : Worker Flight} (hw : s.scheduler.worker? k = some w)
    (w' : Option (Worker Flight)) (now : Nat) (script : List Attempt) :
    Sound { s with now, scheduler := s.scheduler.put k w', script } := by
  refine ⟨Scheduler.sole_put h.sole hw w', fun hp => ?_⟩
  rw [h.gone hp k] at hw
  cases hw

theorem Sound.happening (h : Sound s) (hh : Happening s moment k s' new) : Sound s' := by
  cases hh with
  | begins hw => exact h.put hw _ _ _
  | ends hw => exact h.put hw _ _ _

/-- **No two workers are ever alive.** -/
theorem sound_run (h : Sound s) (steps : List Step) : Sound (s.run steps).1 :=
  run_induction (fun s _ => Sound s) (fun ha h => h.acts ha) (fun hh h => h.happening hh)
    (fun h => ⟨h.sole, h.gone⟩) h steps

/-! ### Every login comes to something -/

/-- Every login that began has ended, was given up or is under way. -/
structure Balanced (s : Simulation) (past : List Notice) : Prop where
  /-- No two workers are alive. -/
  sound : Sound s
  /-- The count is right. -/
  count : (begins past).length
    = (endings past).length + (givenUp past).length + s.scheduler.flight?.toList.length

theorem Balanced.acts (h : Balanced s past) (hacts : Acts s x s' new) :
    Balanced s' (past ++ new) := by
  refine ⟨h.sound.acts hacts, ?_⟩
  have hcount := h.count
  cases hacts with
  | rests => simpa using hcount
  | spawns hp hs hx =>
    have hbefore : s.scheduler.flight? = none := by
      rw [← Scheduler.snd_release, Scheduler.release_of_not_isRunning hs]
    rw [hbefore] at hcount
    rw [List.append_nil]
    simp only [Scheduler.flight?_spawn h.sound.sole hs]
    exact hcount
  | releases hp hx present hpresent dropped =>
    have hafter : s.scheduler.release.1.flight? = none :=
      Scheduler.flight?_of_none (Scheduler.worker?_release h.sound.sole)
    simp only [begins_append, endings_append, givenUp_append, begins_gaveUp, endings_gaveUp,
      givenUp_gaveUp, hafter, List.append_nil, List.length_append, Option.toList_none,
      List.length_nil]
    omega

theorem Balanced.happening (h : Balanced s past) (hh : Happening s moment k s' new) :
    Balanced s' (past ++ new) := by
  refine ⟨h.sound.happening hh, ?_⟩
  have hcount := h.count
  cases hh with
  | begins hw =>
    rw [Scheduler.flight?_of_worker? h.sound.sole hw] at hcount
    simp only [Scheduler.flight?_put h.sound.sole hw]
    simpa [begins, endings, givenUp, Worker.underWay?] using hcount
  | ends hw =>
    rename_i failures outcome
    rw [Scheduler.flight?_of_worker? h.sound.sole hw] at hcount
    simp only [Scheduler.flight?_put h.sound.sole hw, Scheduler.underWay?_afterLogin]
    rw [begins_append, endings_append, givenUp_append, begins_ended, endings_ended, givenUp_ended,
      List.append_nil, List.append_nil, List.length_append]
    simp only [Worker.underWay?, Option.toList_some, Option.toList_none, List.length_singleton,
      List.length_nil] at hcount ⊢
    omega

/-- **Every login that began has ended, was given up or is under way.** -/
theorem balanced_run (policy : RenewalPolicy) (reports : Bool) (script : List Attempt)
    (afterwards : Attempt) (steps : List Step) :
    Balanced ((initial policy reports script afterwards).run steps).1
      ((initial policy reports script afterwards).run steps).2 :=
  run_induction Balanced (fun ha h => h.acts ha) (fun hh h => h.happening hh)
    (fun h => ⟨⟨h.sound.sole, h.sound.gone⟩, h.count⟩)
    ⟨sound_initial policy reports script afterwards, rfl⟩ steps

/-- No login is given up while time passes. -/
theorem givenUp_runUntil (t : Nat) (s : Simulation) : givenUp (runUntil t s).2 = [] := by
  have keeps : ∀ {s moment k s' past new}, Happening s moment k s' new →
      givenUp past = [] → givenUp (past ++ new) = [] := by
    intro s moment k s' past new hh h
    rw [givenUp_append, h]
    cases hh with
    | begins => rfl
    | ends => exact givenUp_ended ..
  exact runUntil_induction (fun _ past => givenUp past = []) (fun _ past => givenUp past = [])
    (fun hh _ _ => keeps hh) (fun _ h => h) [] rfl

theorem givenUp_acts (hacts : Acts s x s' new) :
    givenUp new
      = if s.present = true ∧ x.isEnd = true then s.scheduler.flight?.toList else [] := by
  cases hacts with
  | rests hx =>
    rw [if_neg]
    · rfl
    · rintro ⟨hp, hend⟩
      exact absurd ((hx hp).1.symm.trans hend) nofun
  | spawns hp hs hx =>
    rw [← Scheduler.snd_release, Scheduler.release_of_not_isRunning hs]
    split <;> rfl
  | releases hp hx =>
    rw [if_pos ⟨hp, hx⟩]
    exact givenUp_gaveUp _

/-- A login is given up by a stop or a drop that finds it under way, and by nothing else. -/
theorem givenUp_step (s : Simulation) (x : Step) :
    givenUp (s.step x).2
      = if s.present = true ∧ x.isEnd = true then s.scheduler.flight?.toList else [] := by
  rw [step_eq, givenUp_append, givenUp_runUntil, List.append_nil]
  exact givenUp_acts (acts_act s x)

/-! ### Nothing happens while nobody is alive -/

/-- Nobody is alive. -/
def Silent (s : Simulation) : Prop := ∀ k, s.scheduler.worker? k = none

theorem Silent.runUntil (h : Silent s) (t : Nat) :
    Simulation.runUntil t s = ({ s with now := max s.now t }, []) := by
  have hnone : s.next? = none := by
    rw [Option.eq_none_iff_forall_ne_some]
    rintro ⟨moment, k⟩ hnext
    obtain ⟨w, hw, -⟩ := soonest_eq_some hnext
    rw [show s.scheduler.workers[k]?.join = none from h k] at hw
    cases hw
  rw [Simulation.runUntil]
  split
  · rfl
  · rename_i hnext
    rw [hnone] at hnext
    cases hnext

/-- A step that starts nothing, or comes after a drop, keeps everything silent. -/
theorem Silent.step (h : Silent s) (hx : s.present = false ∨ x.isStart = false) :
    Silent (s.step x).1 ∧ (s.step x).2 = [] ∧
      (s.present = false → (s.step x).1.present = false) := by
  have hacts := acts_act s x
  have hquiet : ∀ {s' new}, Acts s x s' new →
      Silent s' ∧ new = [] ∧ (s.present = false → s'.present = false) := by
    intro s' new hacts
    cases hacts with
    | rests => exact ⟨h, rfl, id⟩
    | spawns hp hs hstart =>
      rcases hx with hx | hx
      · exact absurd (hp.symm.trans hx) nofun
      · exact absurd (hstart.symm.trans hx) nofun
    | releases hp hend present =>
      refine ⟨?_, ?_, fun hgone => absurd (hp.symm.trans hgone) nofun⟩
      · refine Scheduler.worker?_release fun k w hw => ?_
        rw [h k] at hw
        cases hw
      · rw [Scheduler.flight?_of_none h]
        rfl
  obtain ⟨hs, hnew, hp⟩ := hquiet hacts
  rw [step_eq, hs.runUntil, hnew]
  exact ⟨hs, rfl, hp⟩

/-- **Nothing happens while nobody is alive**, be it until the next start or for ever after a
drop. -/
theorem run_of_silent (h : Silent s) (steps : List Step)
    (hsteps : s.present = false ∨ ∀ x ∈ steps, x.isStart = false) : (s.run steps).2 = [] := by
  induction steps generalizing s with
  | nil => rfl
  | cons x rest ih =>
    obtain ⟨hs, hnew, hp⟩ := h.step (hsteps.imp_right fun hq => hq x List.mem_cons_self)
    rw [run_cons, hnew, ih hs (hsteps.imp hp fun hq y hy => hq y (List.mem_cons_of_mem _ hy))]
    rfl

/-- After a stop or a drop nobody is alive, and nothing is heard but of the login given up. -/
theorem Sound.silent_of_isEnd (h : Sound s) (hx : x.isEnd = true) :
    Silent (s.step x).1 ∧ (s.step x).2 = (givenUp (s.step x).2).map Notice.gaveUp ∧
      (x = .drop → (s.step x).1.present = false) := by
  have hquiet : ∀ {s' new}, Acts s x s' new → Silent s' ∧ new = (givenUp new).map Notice.gaveUp ∧
      (x = .drop → s'.present = false) := by
    intro s' new hacts
    cases hacts with
    | rests hrests =>
      have hp : s.present = false := by
        rw [← Bool.not_eq_true]
        exact fun hp => absurd ((hrests hp).1.symm.trans hx) nofun
      exact ⟨h.gone hp, rfl, fun _ => hp⟩
    | spawns hp hs hstart => exact absurd (hstart.symm.trans (Step.isStart_of_isEnd hx)) nofun
    | releases hp hend present hpresent =>
      refine ⟨Scheduler.worker?_release h.sole, by rw [givenUp_gaveUp], ?_⟩
      rintro rfl
      rw [← Bool.not_eq_true]
      exact fun hp => absurd (hpresent hp) nofun
  obtain ⟨hs, hnew, hp⟩ := hquiet (acts_act s x)
  rw [step_eq, hs.runUntil, List.append_nil]
  exact ⟨hs, hnew, hp⟩

/-! ### Between two steps -/

/-- The next event lies in the future. -/
def Settled (s : Simulation) : Prop :=
  ∀ k w moment, s.scheduler.worker? k = some w → w.nextAt = some moment → s.now < moment

theorem settled_step (s : Simulation) (x : Step) : Settled (s.step x).1 := by
  intro k w moment hw hat
  have hle : (s.act x).1.now ≤ s.horizon x := by
    rw [(acts_act s x).now_eq]
    exact now_le_horizon s x
  obtain ⟨hnow, hnext⟩ := runUntil_now hle
  obtain ⟨soonest, j, hsoonest, hmoment⟩ := soonest_le hw hat
  rw [step_eq, hnow]
  exact Nat.lt_of_lt_of_le (hnext soonest j hsoonest) hmoment

theorem settled_run (h : Settled s) (steps : List Step) : Settled (s.run steps).1 := by
  induction steps generalizing s with
  | nil => exact h
  | cons x rest ih => exact ih (settled_step s x)

/-- A worker that is alive waits for a timer or for a login, and not for both. -/
theorem due?_isSome_iff {Login : Type} (w : Worker Login) :
    w.due?.isSome = true ↔ w.underWay? = none := by
  obtain ⟨wait, failures⟩ := w
  cases wait <;> simp [Worker.due?, Worker.underWay?]

theorem isRunning_eq_some_true_iff (h : Sound s) :
    s.isRunning = some true ↔ ∃ k w, s.scheduler.worker? k = some w := by
  rw [← Scheduler.isRunning_iff h.sole, isRunning]
  split
  · exact Option.some_inj
  · rename_i hp
    refine ⟨nofun, fun hs => ?_⟩
    obtain ⟨k, w, hw⟩ := (Scheduler.isRunning_iff h.sole).mp hs
    rw [h.gone (by simpa using hp) k] at hw
    cases hw

/-- **A scheduler has one worker at most, at any moment of any run.** The worker that is alive waits
for a timer that has not gone off or for a login, so no two logins are under way at once, and the
scheduler runs exactly while there is one. Every login that began has ended, was given up or is
under way. A step gives up the login under way if it is a stop or a drop, and none otherwise. After
a stop nothing is heard but of that login until a start, and after a drop nothing at all. -/
theorem one_worker (policy : RenewalPolicy) (reports : Bool) (script : List Attempt)
    (afterwards : Attempt) (steps : List Step) :
    let s := ((initial policy reports script afterwards).run steps).1
    let notices := ((initial policy reports script afterwards).run steps).2
    (∀ j k, (s.scheduler.worker? j).isSome → (s.scheduler.worker? k).isSome → j = k) ∧
      (∀ k w, s.scheduler.worker? k = some w → (w.due?.isSome = true ↔ w.underWay? = none) ∧
        ∀ moment, w.nextAt = some moment → s.now < moment) ∧
      s.scheduler.underWay.length ≤ 1 ∧
      (s.isRunning = some true ↔ ∃ k w, s.scheduler.worker? k = some w) ∧
      (begins notices).length =
        (endings notices).length + (givenUp notices).length + s.scheduler.underWay.length ∧
      (∀ x, givenUp (s.step x).2 =
        if s.present = true ∧ x.isEnd = true then s.scheduler.underWay.map Prod.snd else []) ∧
      ∀ x rest, x.isEnd = true → (x = .drop ∨ ∀ y ∈ rest, y.isStart = false) →
        (s.run (x :: rest)).2 = (givenUp (s.step x).2).map Notice.gaveUp := by
  have hbalanced := balanced_run policy reports script afterwards steps
  have hsound := hbalanced.sound
  have hflight := Scheduler.underWay_eq hsound.sole
  have hlength := congrArg List.length hflight
  rw [List.length_map] at hlength
  have hsettled := settled_run (s := initial policy reports script afterwards)
    (fun k w moment hw => by cases hw) steps
  refine ⟨fun j k hj hk => ?_,
    fun k w hw => ⟨due?_isSome_iff w, fun moment => hsettled k w moment hw⟩, ?_,
    isRunning_eq_some_true_iff hsound, ?_, fun x => ?_, fun x rest hx hrest => ?_⟩
  · obtain ⟨v, hv⟩ := Option.isSome_iff_exists.mp hj
    obtain ⟨w, hw⟩ := Option.isSome_iff_exists.mp hk
    exact hsound.sole.unique hv hw
  · rw [hlength]
    exact Option.length_toList_le
  · rw [hlength]
    exact hbalanced.count
  · rw [hflight]
    exact givenUp_step _ x
  · obtain ⟨hsilent, hnew, hdrop⟩ := hsound.silent_of_isEnd hx
    rw [run_cons, run_of_silent hsilent rest (hrest.imp_left hdrop), List.append_nil]
    exact hnew

end Simulation

end VaultTokens.Renewal
