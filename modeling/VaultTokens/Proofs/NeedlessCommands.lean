import VaultTokens.Proofs.SoleWorker

/-!
# Commands that do nothing

To start a scheduler that runs, to stop one that does not, and to start one for a token that never
expires are commands without any effect. They may leave something behind in the scheduler, since a
stop forgets the place of a worker that is over. Nobody can tell: a simulation *echoes* another if
the worker that is alive is the same, but for a shift of all moments, and then whatever is done to
both has the same notices, shifted alike.

That a scheduler whose worker is over is as good as new is the other use of a shift. The simulation
of a scheduler that does not run echoes the one of a new scheduler with the logins to come.

## Main results

* `Echoes.act`, `Echoes.runUntil`, `Echoes.run` — an echo stays one, with the same notices
* `Needless.echoes` — a needless command leaves an echo of what was there
* `runUntil_of_le` — a pause may be cut in two
* `needless_commands` — needless commands at any moments of a run change nothing
-/

namespace VaultTokens.Renewal

/-! ### The worker that is alive -/

namespace Scheduler

variable {Login : Type} {s : Scheduler Login} {k : Nat} {w : Worker Login}

/-- The worker that is kept, if it is alive. -/
def alive? (s : Scheduler Login) : Option (Worker Login) := s.kept.bind s.worker?

theorem isRunning_eq_isSome (s : Scheduler Login) : s.isRunning = s.alive?.isSome := rfl

theorem isRunning_eq_false_iff : s.isRunning = false ↔ s.alive? = none := by
  rw [isRunning_eq_isSome, Option.isSome_eq_false_iff, Option.isNone_iff_eq_none]

theorem flight?_eq_bind (s : Scheduler Login) : s.flight? = s.alive?.bind Worker.underWay? :=
  (Option.bind_assoc ..).symm

theorem alive?_of_worker? (h : s.Sole) (hw : s.worker? k = some w) : s.alive? = some w := by
  rw [alive?, h k w hw, Option.bind_some, hw]

theorem exists_worker?_of_alive? (h : s.alive? = some w) :
    ∃ k, s.kept = some k ∧ s.worker? k = some w :=
  Option.bind_eq_some_iff.1 h

theorem alive?_of_silent (h : ∀ k, s.worker? k = none) : s.alive? = none :=
  Option.bind_eq_none_iff.2 fun k _ => h k

theorem alive?_put (h : s.Sole) (hw : s.worker? k = some w) (w' : Option (Worker Login)) :
    (s.put k w').alive? = w' := by
  have hkept : (s.put k w').kept = some k := h k w hw
  rw [alive?, hkept, Option.bind_some, worker?_put_self (lt_of_worker? hw)]

theorem alive?_release (h : s.Sole) : s.release.1.alive? = none :=
  alive?_of_silent (worker?_release h)

theorem alive?_spawn (h : s.Sole) (hs : s.isRunning = false) (due : Nat) :
    (s.spawn due).1.alive? = some ⟨.timer due, 0⟩ := by
  have hlast := worker?_spawn h hs due s.release.1.workers.length
  rw [if_pos rfl] at hlast
  exact alive?_of_worker? (sole_spawn h due) hlast

end Scheduler

/-! ### Everything later -/

/-- A timer goes off later if it is set later. -/
theorem deadline_add (now d : Nat) (wait : Duration) :
    deadline (now + d) wait = deadline now wait + d := by
  simp only [deadline]
  omega

/-- A login that ends later. -/
def Flight.later (d : Nat) (f : Flight) : Flight := { f with ends := f.ends + d }

theorem Flight.hangs_later (d now : Nat) (f : Flight) :
    (f.later d).hangs (now + d) = f.hangs now := by
  simp [hangs, later]

namespace Worker

/-- A worker whose timer goes off or whose login ends later. -/
def later (d : Nat) : Worker Flight → Worker Flight
  | ⟨.timer due, failures⟩ => ⟨.timer (due + d), failures⟩
  | ⟨.login f, failures⟩ => ⟨.login (f.later d), failures⟩

theorem later_zero (w : Worker Flight) : w.later 0 = w := by
  obtain ⟨wait, failures⟩ := w
  cases wait <;> rfl

theorem later_later (d e : Nat) (w : Worker Flight) : (w.later e).later d = w.later (d + e) := by
  obtain ⟨wait, failures⟩ := w
  cases wait <;> simp [later, Flight.later, Nat.add_assoc, Nat.add_comm e d]

theorem nextAt_later (d : Nat) (w : Worker Flight) :
    (w.later d).nextAt = w.nextAt.map (· + d) := by
  obtain ⟨wait, failures⟩ := w
  cases wait with
  | timer due => rfl
  | login f =>
    simp only [later, Flight.later, nextAt]
    split <;> rfl

theorem underWay?_later (d : Nat) (w : Worker Flight) :
    (w.later d).underWay? = w.underWay?.map (Flight.later d) := by
  obtain ⟨wait, failures⟩ := w
  cases wait <;> rfl

end Worker

/-- After a login that ended later everything is later. -/
theorem Scheduler.afterLogin_later (p : RenewalPolicy) (now d : Nat) (failures : UInt32)
    (outcome : Except Failure (Option UInt64)) :
    (afterLogin p (now + d) failures outcome : Option (Worker Flight))
      = (afterLogin p now failures outcome).map (Worker.later d) := by
  cases outcome with
  | ok lease =>
    cases lease with
    | none => rfl
    | some lease =>
      rw [afterLogin, deadline_add]
      rfl
  | error f =>
    simp only [afterLogin, deadline_add]
    split <;> rfl

namespace Simulation

variable {s t u : Simulation} {d c moment k : Nat} {x : Step}

/-- What is told of something that happens later. -/
def Notice.later (d : Nat) : Notice → Notice
  | .began moment => .began (moment + d)
  | .ended moment outcome => .ended (moment + d) outcome
  | .reported moment f => .reported (moment + d) f
  | .gaveUp flight => .gaveUp (flight.later d)

theorem Notice.later_zero : Notice.later 0 = id := by
  funext n
  cases n <;> rfl

theorem map_later_reportOf (reports : Bool) (now d : Nat)
    (outcome : Except Failure (Option UInt64)) :
    (reportOf reports now outcome).map (Notice.later d) = reportOf reports (now + d) outcome := by
  cases outcome with
  | ok lease => rfl
  | error f =>
    simp only [reportOf]
    split <;> rfl

/-! ### What happens next -/

/-- What happens next is up to the worker that is alive. -/
theorem next?_eq_some_iff (h : Sound s) :
    s.next? = some (moment, k) ↔
      ∃ w, s.scheduler.worker? k = some w ∧ w.nextAt = some moment := by
  constructor
  · exact soonest_eq_some
  · rintro ⟨w, hw, hat⟩
    obtain ⟨first, j, hnext, -⟩ := soonest_le hw hat
    obtain ⟨v, hv, hat'⟩ := soonest_eq_some hnext
    obtain rfl : j = k := h.sole.unique hv hw
    obtain rfl : v = w := Option.some.inj (hv.symm.trans hw)
    obtain rfl : first = moment := Option.some.inj (hat'.symm.trans hat)
    exact hnext

/-- When it happens. -/
theorem map_fst_next? (h : Sound s) :
    s.next?.map Prod.fst = s.scheduler.alive?.bind Worker.nextAt := by
  cases halive : s.scheduler.alive?.bind Worker.nextAt with
  | some moment =>
    obtain ⟨w, hw, hat⟩ := Option.bind_eq_some_iff.1 halive
    obtain ⟨k, -, hk⟩ := Scheduler.exists_worker?_of_alive? hw
    rw [(next?_eq_some_iff h).2 ⟨w, hk, hat⟩]
    rfl
  | none =>
    cases hnext : s.next? with
    | none => rfl
    | some first =>
      obtain ⟨w, hw, hat⟩ := soonest_eq_some hnext
      rw [Scheduler.alive?_of_worker? h.sole hw, Option.bind_some, hat] at halive
      cases halive

theorem runUntil_of_none (h : s.next? = none) (t : Nat) :
    runUntil t s = ({ s with now := max s.now t }, []) := by
  rw [runUntil]
  split
  · rfl
  · rename_i hnext
    rw [h] at hnext
    cases hnext

theorem runUntil_of_lt {t : Nat} (h : s.next? = some (moment, k)) (hlt : t < moment) :
    runUntil t s = ({ s with now := max s.now t }, []) := by
  rw [runUntil]
  split
  · rfl
  · rename_i hnext
    rw [h] at hnext
    cases hnext
    rw [dif_neg (Nat.not_le_of_lt hlt)]

theorem runUntil_of_happen {t : Nat} (h : s.next? = some (moment, k)) (hle : moment ≤ t) :
    runUntil t s = ((runUntil t (s.happen moment k).1).1,
      (s.happen moment k).2 ++ (runUntil t (s.happen moment k).1).2) := by
  rw [runUntil]
  split
  · rename_i hnext
    rw [h] at hnext
    cases hnext
  · rename_i hnext
    rw [h] at hnext
    cases hnext
    rw [dif_pos hle]

/-- Nothing happens between two steps. -/
theorem Settled.runUntil (h : Settled s) : Simulation.runUntil s.now s = (s, []) := by
  have hstay : { s with now := max s.now s.now } = s := by rw [Nat.max_self]
  cases hnext : s.next? with
  | none => rw [runUntil_of_none hnext, hstay]
  | some next =>
    obtain ⟨w, hw, hat⟩ := soonest_eq_some hnext
    rw [runUntil_of_lt hnext (h _ w _ hw hat), hstay]

/-! ### Echoes -/

/-- A simulation echoes another, so many nanoseconds later and with so many more hanging logins
given up, if there is nothing else to tell them apart by. -/
structure Echoes (d c : Nat) (s t : Simulation) : Prop where
  /-- One worker at most is alive in the echo. -/
  sound_left : Sound s
  /-- One worker at most is alive in what it echoes. -/
  sound_right : Sound t
  /-- The echo is so much later. -/
  now : s.now = t.now + d
  /-- The policies agree. -/
  policy : s.scheduler.policy = t.scheduler.policy
  /-- Both report failures, or neither does. -/
  reports : s.scheduler.reports = t.scheduler.reports
  /-- The same worker is alive, so much later. -/
  alive : s.scheduler.alive? = t.scheduler.alive?.map (Worker.later d)
  /-- Both can still be used, or neither can. -/
  present : s.present = t.present
  /-- The same logins are to come. -/
  script : s.script = t.script
  /-- So are those after them. -/
  afterwards : s.afterwards = t.afterwards
  /-- So many more hanging logins were given up. -/
  dropped : s.dropped = t.dropped + c

theorem Echoes.refl (h : Sound s) : Echoes 0 0 s s where
  sound_left := h
  sound_right := h
  now := rfl
  policy := rfl
  reports := rfl
  alive := by
    rw [show Worker.later 0 = id from funext Worker.later_zero, Option.map_id, id]
  present := rfl
  script := rfl
  afterwards := rfl
  dropped := rfl

theorem Echoes.trans {e b : Nat} (h : Echoes d c s t) (h' : Echoes e b t u) :
    Echoes (d + e) (c + b) s u where
  sound_left := h.sound_left
  sound_right := h'.sound_right
  now := by rw [h.now, h'.now, Nat.add_assoc, Nat.add_comm e d]
  policy := h.policy.trans h'.policy
  reports := h.reports.trans h'.reports
  alive := by
    rw [h.alive, h'.alive, Option.map_map]
    exact congrArg (Option.map · _) (funext (Worker.later_later d e))
  present := h.present.trans h'.present
  script := h.script.trans h'.script
  afterwards := h.afterwards.trans h'.afterwards
  dropped := by rw [h.dropped, h'.dropped, Nat.add_assoc, Nat.add_comm b c]

namespace Echoes

theorem isRunning_scheduler (h : Echoes d c s t) :
    s.scheduler.isRunning = t.scheduler.isRunning := by
  rw [Scheduler.isRunning_eq_isSome, h.alive, Option.isSome_map,
    ← Scheduler.isRunning_eq_isSome]

theorem isRunning (h : Echoes d c s t) : s.isRunning = t.isRunning := by
  rw [Simulation.isRunning, Simulation.isRunning, h.present, h.isRunning_scheduler]

theorem flight? (h : Echoes d c s t) :
    s.scheduler.flight? = t.scheduler.flight?.map (Flight.later d) := by
  rw [Scheduler.flight?_eq_bind, Scheduler.flight?_eq_bind, h.alive]
  cases t.scheduler.alive? with
  | none => rfl
  | some w => exact Worker.underWay?_later d w

/-- The next event of an echo is that of what it echoes, so much later. -/
theorem next? (h : Echoes d c s t) :
    s.next?.map Prod.fst = (t.next?.map Prod.fst).map (· + d) := by
  rw [map_fst_next? h.sound_left, map_fst_next? h.sound_right, h.alive]
  cases t.scheduler.alive? with
  | none => rfl
  | some w => exact Worker.nextAt_later d w

/-- The moments of two simulations pass alike. -/
theorem wait (h : Echoes d c s t) (moment : Nat) :
    Echoes d c { s with now := max s.now (moment + d) } { t with now := max t.now moment } :=
  { h with
    sound_left := ⟨h.sound_left.sole, h.sound_left.gone⟩
    sound_right := ⟨h.sound_right.sole, h.sound_right.gone⟩
    now := by
      change max s.now (moment + d) = max t.now moment + d
      rw [h.now, Nat.add_max_add_right] }

/-- What the worker that is alive does in an echo is what it does in what it echoes. -/
theorem happening (h : Echoes d c s t) {j : Nat} {s' t' : Simulation} {new new' : List Notice}
    (hs : Happening s (moment + d) j s' new) (ht : Happening t moment k t' new') :
    Echoes d c s' t' ∧ new = new'.map (Notice.later d) := by
  have hnow : max s.now (moment + d) = max t.now moment + d := by
    rw [h.now, Nat.add_max_add_right]
  have hsame : ∀ {v w : Worker Flight}, s.scheduler.worker? j = some v →
      t.scheduler.worker? k = some w → v = w.later d := by
    intro v w hv hw
    have halive := h.alive
    rw [Scheduler.alive?_of_worker? h.sound_left.sole hv,
      Scheduler.alive?_of_worker? h.sound_right.sole hw] at halive
    exact Option.some.inj halive
  cases ht with
  | begins hw =>
    cases hs with
    | ends hv => cases hsame hv hw
    | begins hv =>
      obtain ⟨-, rfl⟩ := Worker.mk.inj (hsame hv hw)
      refine ⟨{ h with
        sound_left := h.sound_left.put hv _ _ _
        sound_right := h.sound_right.put hw _ _ _
        now := hnow
        alive := ?_
        script := congrArg List.tail h.script }, ?_⟩
      · change (s.scheduler.put j _).alive? = (t.scheduler.put k _).alive?.map _
        rw [Scheduler.alive?_put h.sound_left.sole hv, Scheduler.alive?_put h.sound_right.sole hw,
          hnow, h.script, h.afterwards]
        simp only [Option.map_some, Worker.later, Flight.later, Nat.add_right_comm]
      · rw [hnow]
        rfl
  | ends hw =>
    cases hs with
    | begins hv => cases hsame hv hw
    | ends hv =>
      obtain ⟨hlogin, rfl⟩ := Worker.mk.inj (hsame hv hw)
      obtain ⟨-, hsome⟩ := Flight.mk.inj (Wait.login.inj hlogin)
      obtain rfl := Option.some.inj hsome
      refine ⟨{ h with
        sound_left := h.sound_left.put hv _ _ _
        sound_right := h.sound_right.put hw _ _ _
        now := hnow
        alive := ?_ }, ?_⟩
      · change (s.scheduler.put j _).alive? = (t.scheduler.put k _).alive?.map _
        rw [Scheduler.alive?_put h.sound_left.sole hv, Scheduler.alive?_put h.sound_right.sole hw,
          hnow, h.policy, Scheduler.afterLogin_later]
      · rw [hnow, h.reports, List.map_cons, map_later_reportOf]
        rfl

/-- **While time passes an echo stays one**, with the same notices. -/
theorem runUntil (h : Echoes d c s t) (limit : Nat) :
    Echoes d c (Simulation.runUntil (limit + d) s).1 (Simulation.runUntil limit t).1 ∧
      (Simulation.runUntil (limit + d) s).2
        = (Simulation.runUntil limit t).2.map (Notice.later d) := by
  fun_induction Simulation.runUntil limit t generalizing s with
  | case1 t hnone =>
    have hnext := h.next?
    rw [hnone, Option.map_none, Option.map_none, Option.map_eq_none_iff] at hnext
    rw [runUntil_of_none hnext]
    exact ⟨h.wait limit, rfl⟩
  | case2 t moment k hsome hle rest =>
    rename_i ih
    have hnext := h.next?
    rw [hsome, Option.map_some, Option.map_some] at hnext
    obtain ⟨⟨later, j⟩, hs, rfl⟩ := Option.map_eq_some_iff.1 hnext
    obtain ⟨hstep, hnew⟩ := h.happening (happening_of_next? hs) (happening_of_next? hsome)
    obtain ⟨hrest, hmore⟩ := ih hstep
    rw [runUntil_of_happen hs (Nat.add_le_add_right hle d), List.map_append, hnew, hmore]
    exact ⟨hrest, rfl⟩
  | case3 t moment k hsome hgt =>
    have hnext := h.next?
    rw [hsome, Option.map_some, Option.map_some] at hnext
    obtain ⟨⟨later, j⟩, hs, rfl⟩ := Option.map_eq_some_iff.1 hnext
    rw [runUntil_of_lt hs (Nat.add_lt_add_right (Nat.lt_of_not_le hgt) d)]
    exact ⟨h.wait limit, rfl⟩

/-- A start has the same effect on an echo. -/
theorem spawn (h : Echoes d c s t) (hp : t.present = true) (due : Nat) :
    Echoes d c (s.replace (s.scheduler.spawn (due + d))).1 (t.replace (t.scheduler.spawn due)).1 ∧
      (s.replace (s.scheduler.spawn (due + d))).2
        = (t.replace (t.scheduler.spawn due)).2.map (Notice.later d) := by
  cases hrun : t.scheduler.isRunning with
  | true =>
    rw [Scheduler.spawn_of_isRunning hrun,
      Scheduler.spawn_of_isRunning (h.isRunning_scheduler.trans hrun)]
    exact ⟨h, rfl⟩
  | false =>
    have hrun' := h.isRunning_scheduler.trans hrun
    have hnone := (Scheduler.spawn_of_not_isRunning hrun due).1
    have hnone' := (Scheduler.spawn_of_not_isRunning hrun' (due + d)).1
    simp only [Simulation.replace, hnone, hnone', Option.any_none, Option.map_none,
      Option.toList_none, List.map_nil, and_true]
    have hpolicy := Scheduler.policy_spawn s.scheduler (due + d)
    have hpolicy' := Scheduler.policy_spawn t.scheduler due
    exact { h with
      sound_left := ⟨Scheduler.sole_spawn h.sound_left.sole _,
        fun hgone => (Bool.false_ne_true (hgone.symm.trans (h.present.trans hp))).elim⟩
      sound_right := ⟨Scheduler.sole_spawn h.sound_right.sole _,
        fun hgone => (Bool.false_ne_true (hgone.symm.trans hp)).elim⟩
      policy := hpolicy.1.trans (h.policy.trans hpolicy'.1.symm)
      reports := hpolicy.2.trans (h.reports.trans hpolicy'.2.symm)
      alive := by
        rw [Scheduler.alive?_spawn h.sound_left.sole hrun',
          Scheduler.alive?_spawn h.sound_right.sole hrun]
        rfl }

/-- So has the end of a worker, by a stop or a drop. -/
theorem release (h : Echoes d c s t) (present : Bool) :
    Echoes d c ({ s with present }.replace s.scheduler.release).1
        ({ t with present }.replace t.scheduler.release).1 ∧
      ({ s with present }.replace s.scheduler.release).2
        = ({ t with present }.replace t.scheduler.release).2.map (Notice.later d) := by
  have hhanging : (s.scheduler.flight?.any fun f => f.hangs s.now)
      = t.scheduler.flight?.any fun f => f.hangs t.now := by
    rw [h.flight?, h.now]
    cases t.scheduler.flight? with
    | none => rfl
    | some f => exact f.hangs_later d t.now
  simp only [Simulation.replace, Scheduler.snd_release]
  refine ⟨?_, ?_⟩
  · have hpolicy := Scheduler.policy_release s.scheduler
    have hpolicy' := Scheduler.policy_release t.scheduler
    exact { h with
      sound_left := ⟨Scheduler.sole_release h.sound_left.sole,
        fun _ => Scheduler.worker?_release h.sound_left.sole⟩
      sound_right := ⟨Scheduler.sole_release h.sound_right.sole,
        fun _ => Scheduler.worker?_release h.sound_right.sole⟩
      policy := hpolicy.1.trans (h.policy.trans hpolicy'.1.symm)
      reports := hpolicy.2.trans (h.reports.trans hpolicy'.2.symm)
      alive := by
        rw [Scheduler.alive?_release h.sound_left.sole, Scheduler.alive?_release h.sound_right.sole]
        rfl
      present := rfl
      dropped := by rw [hhanging, h.dropped, Nat.add_right_comm] }
  · rw [h.flight?]
    cases t.scheduler.flight? <;> rfl

/-- **Whatever is done to an echo has the same effect**, with the same notices. -/
theorem act (h : Echoes d c s t) (x : Step) :
    Echoes d c (s.act x).1 (t.act x).1 ∧ (s.act x).2 = (t.act x).2.map (Notice.later d) := by
  by_cases hp : t.present = true
  · have hp' := h.present.trans hp
    cases x with
    | start =>
      simp only [Simulation.act, if_pos hp, if_pos hp', Scheduler.start, h.now]
      exact h.spawn hp t.now
    | startFrom lease =>
      simp only [Simulation.act, if_pos hp, if_pos hp']
      cases lease with
      | none => exact ⟨h, rfl⟩
      | some lease =>
        simp only [Scheduler.startFrom, h.now, h.policy, deadline_add]
        exact h.spawn hp _
    | stop =>
      simp only [Simulation.act, if_pos hp, if_pos hp']
      have hstop := h.release t.present
      have hkeep : { s with present := t.present } = s := by rw [← h.present]
      rw [hkeep] at hstop
      exact hstop
    | drop =>
      simp only [Simulation.act, if_pos hp, if_pos hp']
      exact h.release false
    | sleep nanos =>
      simp only [Simulation.act, if_pos hp, if_pos hp']
      exact ⟨h, rfl⟩
  · have hp' : ¬s.present = true := h.present ▸ hp
    simp only [Simulation.act, if_neg hp, if_neg hp']
    exact ⟨h, rfl⟩

theorem horizon (h : Echoes d c s t) (x : Step) : s.horizon x = t.horizon x + d := by
  cases x with
  | sleep nanos => simp only [Simulation.horizon, h.now, Nat.add_right_comm]
  | _ => exact h.now

theorem step (h : Echoes d c s t) (x : Step) :
    Echoes d c (s.step x).1 (t.step x).1 ∧ (s.step x).2 = (t.step x).2.map (Notice.later d) := by
  obtain ⟨hacted, hnew⟩ := h.act x
  obtain ⟨hrest, hmore⟩ := hacted.runUntil (t.horizon x)
  rw [step_eq, step_eq, h.horizon, List.map_append, hnew, hmore]
  exact ⟨hrest, rfl⟩

/-- **An echo stays one through every run**, with the same notices. -/
theorem run (h : Echoes d c s t) (steps : List Step) :
    Echoes d c (s.run steps).1 (t.run steps).1 ∧
      (s.run steps).2 = (t.run steps).2.map (Notice.later d) := by
  induction steps generalizing s t with
  | nil => exact ⟨h, rfl⟩
  | cons x rest ih =>
    obtain ⟨hstep, hnew⟩ := h.step x
    obtain ⟨hrest, hmore⟩ := ih hstep
    rw [run_cons, run_cons, List.map_append, hnew, hmore]
    exact ⟨hrest, rfl⟩

end Echoes

/-! ### Needless commands -/

/-- A command is needless if it starts a scheduler that runs, starts one for a token that never
expires, or stops one that does not run. -/
inductive Needless (s : Simulation) : Step → Prop where
  /-- It runs already. -/
  | start (h : s.isRunning = some true) : Needless s .start
  /-- It runs already, whatever the lease of the token. -/
  | startFrom (h : s.isRunning = some true) (lease : Option UInt64) : Needless s (.startFrom lease)
  /-- The token never expires. -/
  | startFor : Needless s (.startFrom none)
  /-- It does not run. -/
  | stop (h : s.isRunning = some false) : Needless s .stop

theorem present_of_isRunning {b : Bool} (h : s.isRunning = some b) :
    s.present = true ∧ s.scheduler.isRunning = b := by
  rw [isRunning] at h
  split at h
  · rename_i hp
    exact ⟨hp, Option.some.inj h⟩
  · cases h

/-- What a needless command leaves behind cannot be told from what was there. -/
theorem Needless.act (hx : Needless s x) (h : Sound s) :
    Echoes 0 0 (s.act x).1 s ∧ (s.act x).2 = [] := by
  cases hx with
  | start hrun =>
    obtain ⟨hp, hrun⟩ := present_of_isRunning hrun
    simp only [Simulation.act, if_pos hp, Scheduler.start_of_isRunning hrun]
    exact ⟨.refl h, rfl⟩
  | startFrom hrun lease =>
    obtain ⟨hp, hrun⟩ := present_of_isRunning hrun
    simp only [Simulation.act, if_pos hp, Scheduler.startFrom_of_isRunning hrun]
    exact ⟨.refl h, rfl⟩
  | startFor =>
    simp only [Simulation.act]
    split <;> exact ⟨.refl h, rfl⟩
  | stop hrun =>
    obtain ⟨hp, hrun⟩ := present_of_isRunning hrun
    simp only [Simulation.act, if_pos hp, Simulation.replace, Scheduler.stop_of_idle hrun]
    have hpolicy := Scheduler.policy_release s.scheduler
    refine ⟨{ Echoes.refl h with
      sound_left := ⟨Scheduler.sole_release h.sole, fun _ => Scheduler.worker?_release h.sole⟩
      policy := hpolicy.1
      reports := hpolicy.2
      alive := ?_ }, rfl⟩
    rw [Scheduler.isRunning_eq_false_iff.1 hrun]
    exact Scheduler.alive?_release h.sole

/-- **A needless command leaves an echo of what was there**, and nothing is heard of it. -/
theorem Needless.echoes (hx : Needless s x) (h : Sound s) (hsettled : Settled s) :
    Echoes 0 0 (s.step x).1 s ∧ (s.step x).2 = [] := by
  obtain ⟨hacted, hnew⟩ := hx.act h
  have hhorizon : s.horizon x = s.now := by cases hx <;> rfl
  obtain ⟨hrest, hmore⟩ := hacted.runUntil s.now
  rw [hsettled.runUntil] at hrest hmore
  rw [step_eq, hhorizon, hnew]
  exact ⟨hrest, hmore⟩

/-! ### Pauses in two parts -/

/-- How late it is makes no difference to an event that is still to come. -/
theorem happen_of_lt {now : Nat} (h : s.next? = some (moment, k)) (hlt : now < moment) :
    ({ s with now := max s.now now }).happen moment k = s.happen moment k := by
  have hmax : max (max s.now now) moment = max s.now moment := by omega
  simp only [happen, hmax]
  obtain ⟨⟨wait, failures⟩, hw, hat⟩ := soonest_eq_some h
  have hw' : s.scheduler.worker? k = some ⟨wait, failures⟩ := hw
  rw [hw']
  cases wait with
  | timer due => rfl
  | login flight =>
    obtain ⟨ends, outcome⟩ := flight
    cases outcome with
    | none => cases hat
    | some outcome => rfl

/-- What happens by some moment happens by an earlier one or after that. -/
theorem runUntil_of_le {early late : Nat} (h : early ≤ late) (s : Simulation) :
    runUntil late s = ((runUntil late (runUntil early s).1).1,
      (runUntil early s).2 ++ (runUntil late (runUntil early s).1).2) := by
  have hmax : ∀ s : Simulation, max (max s.now early) late = max s.now late := by
    intro s
    omega
  fun_induction runUntil early s with
  | case1 s hnone =>
    have hnone' : ({ s with now := max s.now early }).next? = none := hnone
    dsimp only
    rw [runUntil_of_none hnone, runUntil_of_none hnone', hmax]
    rfl
  | case2 s moment k hsome hle rest =>
    rename_i ih
    rw [runUntil_of_happen hsome (Nat.le_trans hle h), ih, List.append_assoc]
  | case3 s moment k hsome hgt =>
    have hsome' : ({ s with now := max s.now early }).next? = some (moment, k) := hsome
    dsimp only
    rw [List.nil_append]
    by_cases hlate : moment ≤ late
    · rw [runUntil_of_happen hsome hlate, runUntil_of_happen hsome' hlate,
        happen_of_lt hsome (Nat.lt_of_not_le hgt)]
    · rw [runUntil_of_lt hsome (Nat.lt_of_not_le hlate),
        runUntil_of_lt hsome' (Nat.lt_of_not_le hlate), hmax]

/-- A pause may be cut in two. -/
theorem step_sleep_add (s : Simulation) (a b : Nat) :
    s.step (.sleep (a + b)) = (((s.step (.sleep a)).1.step (.sleep b)).1,
      (s.step (.sleep a)).2 ++ ((s.step (.sleep a)).1.step (.sleep b)).2) := by
  have hsleep : ∀ (s : Simulation) (nanos : Nat),
      s.step (.sleep nanos) = runUntil (s.now + nanos) s := by
    intro s nanos
    rw [step_eq]
    simp only [act, horizon]
    split <;> rw [List.nil_append]
  have hnow : (runUntil (s.now + a) s).1.now = s.now + a := (runUntil_now (by omega)).1
  rw [hsleep, hsleep, hsleep, hnow, Nat.add_assoc]
  exact runUntil_of_le (by omega) s

/-! ### Runs with needless commands in them -/

/-- The same steps with needless commands among them. A pause may be cut in two, so that such a
command can come at any moment. -/
inductive Padded : Simulation → List Step → List Step → Prop where
  /-- No steps. -/
  | nil (s : Simulation) : Padded s [] []
  /-- A step of both. -/
  | keep {s : Simulation} {rest padded : List Step} (x : Step)
    (h : Padded (s.step x).1 rest padded) : Padded s (x :: rest) (x :: padded)
  /-- A needless command. -/
  | needless {s : Simulation} {rest padded : List Step} {x : Step} (hx : Needless s x)
    (h : Padded (s.step x).1 rest padded) : Padded s rest (x :: padded)
  /-- The first part of a pause. -/
  | pause {s : Simulation} {rest padded : List Step} (a b : Nat)
    (h : Padded (s.step (.sleep a)).1 (.sleep b :: rest) padded) :
    Padded s (.sleep (a + b) :: rest) (.sleep a :: padded)

theorem Sound.step (h : Sound s) (x : Step) : Sound (s.step x).1 := sound_run h [x]

/-- **Needless commands in a run change nothing**, and nothing is heard of them. -/
theorem Padded.echoes {rest padded : List Step} (h : Padded s rest padded) (hs : Sound s)
    (hsettled : Settled s) :
    Echoes 0 0 (s.run padded).1 (s.run rest).1 ∧ (s.run padded).2 = (s.run rest).2 := by
  induction h with
  | nil s => exact ⟨.refl hs, rfl⟩
  | keep x h ih =>
    obtain ⟨hrest, hmore⟩ := ih (hs.step x) (settled_step _ x)
    rw [run_cons, run_cons, hmore]
    exact ⟨hrest, rfl⟩
  | @needless s rest padded x hx h ih =>
    obtain ⟨hecho, hnone⟩ := hx.echoes hs hsettled
    obtain ⟨hrest, hmore⟩ := ih (hs.step x) (settled_step s x)
    obtain ⟨hrun, hsame⟩ := hecho.run rest
    rw [Notice.later_zero, List.map_id] at hsame
    rw [run_cons, hnone, List.nil_append, hmore, hsame]
    exact ⟨hrest.trans hrun, rfl⟩
  | @pause s rest padded a b h ih =>
    obtain ⟨hrest, hmore⟩ := ih (hs.step _) (settled_step s _)
    rw [run_cons, hmore, run_cons, run_cons, step_sleep_add, List.append_assoc]
    exact ⟨hrest, rfl⟩

/-! ### A scheduler that is as good as new -/

/-- When and how often to renew, whether failures are reported and what comes behind the script is
settled from the beginning. -/
theorem settings_run (s : Simulation) (steps : List Step) :
    (s.run steps).1.scheduler.policy = s.scheduler.policy ∧
      (s.run steps).1.scheduler.reports = s.scheduler.reports ∧
        (s.run steps).1.afterwards = s.afterwards := by
  refine run_induction
    (fun s' _ => s'.scheduler.policy = s.scheduler.policy ∧
      s'.scheduler.reports = s.scheduler.reports ∧ s'.afterwards = s.afterwards)
    (fun ha h => ?_) (fun hh h => ?_) id ⟨rfl, rfl, rfl⟩ steps
  · cases ha with
    | rests => exact h
    | spawns =>
      obtain ⟨hpolicy, hreports⟩ := @Scheduler.policy_spawn Flight _ _
      exact ⟨hpolicy.trans h.1, hreports.trans h.2.1, h.2.2⟩
    | releases =>
      obtain ⟨hpolicy, hreports⟩ := @Scheduler.policy_release Flight _
      exact ⟨hpolicy.trans h.1, hreports.trans h.2.1, h.2.2⟩
  · cases hh <;> exact h

/-- A scheduler that does not run is as good as a new one with the logins to come. -/
theorem echoes_initial (h : Sound s) (hrun : s.isRunning = some false) :
    Echoes s.now s.dropped s
      (initial s.scheduler.policy s.scheduler.reports s.script s.afterwards) := by
  obtain ⟨hp, hrun⟩ := present_of_isRunning hrun
  exact
    { sound_left := h
      sound_right := sound_initial ..
      now := (Nat.zero_add _).symm
      policy := rfl
      reports := rfl
      alive := Scheduler.isRunning_eq_false_iff.1 hrun
      present := hp
      script := rfl
      afterwards := rfl
      dropped := (Nat.zero_add _).symm }

/-- **Needless commands do nothing.** A run with needless commands at any moments has the notices of
the run without them, and leaves the scheduler running or not, the time and the count of logins
given up the same. A scheduler that does not run, be it that its worker is over, behaves as a new
one with the logins to come, later by the moment that it is. -/
theorem needless_commands (policy : RenewalPolicy) (reports : Bool) (script : List Attempt)
    (afterwards : Attempt) (steps : List Step) :
    let s := ((initial policy reports script afterwards).run steps).1
    (∀ rest padded, Padded s rest padded →
      (s.run padded).2 = (s.run rest).2 ∧
        (s.run padded).1.isRunning = (s.run rest).1.isRunning ∧
        (s.run padded).1.dropped = (s.run rest).1.dropped ∧
        (s.run padded).1.now = (s.run rest).1.now) ∧
      (s.isRunning = some false → ∀ rest,
        let fresh := initial policy reports s.script afterwards
        (s.run rest).2 = (fresh.run rest).2.map (Notice.later s.now) ∧
          (s.run rest).1.isRunning = (fresh.run rest).1.isRunning ∧
          (s.run rest).1.dropped = (fresh.run rest).1.dropped + s.dropped ∧
          (s.run rest).1.now = (fresh.run rest).1.now + s.now) := by
  intro s
  have hsound : Sound s := sound_run (sound_initial policy reports script afterwards) steps
  have hsettled : Settled s := settled_run (fun k w moment hw => by cases hw) steps
  obtain ⟨hpolicy, hreports, hafterwards⟩ :=
    settings_run (initial policy reports script afterwards) steps
  refine ⟨fun rest padded h => ?_, fun hrun rest => ?_⟩
  · obtain ⟨hecho, hsame⟩ := h.echoes hsound hsettled
    exact ⟨hsame, hecho.isRunning, hecho.dropped, hecho.now⟩
  · have hnew : Echoes s.now s.dropped s (initial policy reports s.script afterwards) := by
      have h := echoes_initial hsound hrun
      rwa [hpolicy, hreports, hafterwards] at h
    obtain ⟨hecho, hsame⟩ := hnew.run rest
    exact ⟨hsame, hecho.isRunning, hecho.dropped, hecho.now⟩

end Simulation

end VaultTokens.Renewal
