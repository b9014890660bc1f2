import VaultTokens.Proofs.RenewalTimeline

/-!
# How many logins begin in a window

Nothing between two repetitions of a login keeps them apart: a login may fail at once, and the wait
before it is repeated may be none. Only a renewal lies a second behind the login before it. Logins
therefore come in rounds. A round is one login with its repetitions, of which the policy allows so
many, and a new round begins a second later at least (`Turn.follow_cases`). In a window of time
there is one round more than it has whole seconds, at most, whatever becomes of the logins.

What is due by some moment can be listed without knowing the rounds. `Drains` takes due events one
by one, in the order in which they happen, and no such list is longer than what the workers can
still do by that moment, which counts both the seconds and the repetitions left.

## Main results

* `Turn.rounds_between` — logins so far apart in the timeline are so many seconds apart
* `counted_run`, `Drains.counted` — no worker counts more failures than the policy allows
* `exists_drained` — what is due comes to an end
* `no_bursts` — how many logins begin in a window, at one instant, and why nothing runs on
-/

namespace VaultTokens.Renewal

/-! ### Rounds of a timeline -/

namespace Turn

variable {p : RenewalPolicy} {attempts : Nat → Attempt} {first a b turn next : Turn}
  {attempt : Attempt} {i j span : Nat}

/-- A login that follows on another one begins a new round, a second later at least, or repeats one
that failed, as the policy allows. -/
theorem follow_cases (h : turn.follow p attempt = some next) :
    (next.failures = 0 ∧ turn.moment + nanosPerSecond ≤ next.moment) ∨
      (next.failures = turn.failures + 1 ∧ next.failures ≤ p.maxRetries.toNat ∧
        turn.moment ≤ next.moment) := by
  rw [follow] at h
  cases hc : turn.completion attempt with
  | none =>
    rw [hc] at h
    cases h
  | some c =>
    obtain ⟨ends, outcome⟩ := c
    have hends : turn.moment ≤ ends := le_of_completion hc
    rw [hc] at h
    cases outcome with
    | ok lease =>
      cases lease with
      | none => cases h
      | some lease =>
        obtain rfl := Option.some.inj h
        exact .inl ⟨rfl, Nat.add_le_add hends (second_le_renewalWait p lease)⟩
    | error f =>
      simp only at h
      split at h
      · rename_i hlt
        obtain rfl := Option.some.inj h
        exact .inr ⟨rfl, hlt, Nat.le_trans hends (Nat.le_add_right ..)⟩
      · cases h

/-- No login of a timeline has more failures behind it than the policy allows. -/
theorem failures_le (hfirst : first.failures ≤ p.maxRetries.toNat)
    (h : timeline p attempts first i = some a) : a.failures ≤ p.maxRetries.toNat := by
  cases i with
  | zero =>
    obtain rfl := Option.some.inj h
    exact hfirst
  | succ i =>
    obtain ⟨turn, -, hfollow⟩ := Option.bind_eq_some_iff.mp h
    obtain ⟨hzero, -⟩ | ⟨-, hle, -⟩ := follow_cases hfollow
    · omega
    · exact hle

/-- **Logins so far apart in a timeline are so many seconds apart.** Every round has one login and
its repetitions, and takes a second. -/
theorem rounds_between {d : Nat} (hfirst : first.failures ≤ p.maxRetries.toNat)
    (ha : timeline p attempts first i = some a)
    (hb : timeline p attempts first (i + d) = some b) :
    ∃ rounds, d + a.failures ≤ rounds * (p.maxRetries.toNat + 1) + b.failures ∧
      a.moment + rounds * nanosPerSecond ≤ b.moment := by
  induction d generalizing b with
  | zero =>
    cases ha.symm.trans hb
    exact ⟨0, by omega, by omega⟩
  | succ d ih =>
    obtain ⟨turn, hturn, hfollow⟩ := Option.bind_eq_some_iff.mp hb
    obtain ⟨rounds, hcount, hmoment⟩ := ih hturn
    obtain ⟨hzero, hlater⟩ | ⟨hnext, -, hlater⟩ := follow_cases hfollow
    · -- the round that ends here has as many logins as a round can have
      have hfull := failures_le hfirst hturn
      refine ⟨rounds + 1, ?_, ?_⟩
      · rw [Nat.add_mul, Nat.one_mul]
        omega
      · rw [Nat.add_mul, Nat.one_mul]
        omega
    · exact ⟨rounds, by omega, by omega⟩

/-- Two logins of a timeline that begin in one window are not far apart in it. -/
theorem lt_of_window (hfirst : first.failures ≤ p.maxRetries.toNat) (hij : i ≤ j)
    (ha : timeline p attempts first i = some a) (hb : timeline p attempts first j = some b)
    (hspan : b.moment ≤ a.moment + span) :
    j < i + (p.maxRetries.toNat + 1) * (span / nanosPerSecond + 1) := by
  obtain ⟨d, rfl⟩ := Nat.exists_eq_add_of_le hij
  obtain ⟨rounds, hcount, hmoment⟩ := rounds_between hfirst ha hb
  have hlast := failures_le hfirst hb
  have hsecond : 0 < nanosPerSecond := by decide
  have hrounds : rounds ≤ span / nanosPerSecond := by
    rw [Nat.le_div_iff_mul_le hsecond]
    omega
  have hmul := Nat.mul_le_mul_right (p.maxRetries.toNat + 1) hrounds
  rw [Nat.mul_comm (p.maxRetries.toNat + 1), Nat.add_mul, Nat.one_mul]
  omega

end Turn

/-- If what is sought lies close together in a list, there is not much of it. -/
theorem length_filter_le {α : Type} {q : α → Bool} {n : Nat} {l : List α}
    (h : ∀ i j a b, i ≤ j → l[i]? = some a → q a = true → l[j]? = some b → q b = true →
      j < i + n) : (l.filter q).length ≤ n := by
  induction l with
  | nil => exact Nat.zero_le n
  | cons x rest ih =>
    cases hx : q x with
    | false =>
      rw [List.filter_cons_of_neg (by rw [hx]; exact Bool.false_ne_true)]
      refine ih fun i j a b hij hi ha hj hb => ?_
      have hlt := h (i + 1) (j + 1) a b (Nat.succ_le_succ hij) hi ha hj hb
      omega
    | true =>
      -- the first one sought bounds the places of all others
      have hrest : ((x :: rest).drop n).filter q = [] := by
        refine List.filter_eq_nil_iff.mpr fun b hb hqb => ?_
        obtain ⟨j, hj⟩ := List.getElem?_of_mem hb
        rw [List.getElem?_drop] at hj
        have hlt := h 0 (n + j) x b (Nat.zero_le _) rfl hx hj hqb
        omega
      rw [← List.take_append_drop n (x :: rest), List.filter_append, hrest, List.append_nil]
      exact Nat.le_trans (List.length_filter_le ..) (List.length_take_le ..)

namespace Simulation

variable {s s' u u' : Simulation} {past new : List Notice} {moment k t n : Nat} {p : RenewalPolicy}
  {attempts : Nat → Attempt} {first : Turn}

/-! ### Logins in a window -/

/-- A login that has begun has a place in the timeline. -/
theorem OnTime.exists_turn {reports : Bool} (h : OnTime p reports attempts first s past) {i : Nat}
    (hi : (begins past)[i]? = some moment) :
    ∃ turn, Turn.timeline p attempts first i = some turn ∧ turn.moment = moment :=
  Option.map_eq_some_iff.mp (h.begun i moment hi).1

/-- **In a window no more logins begin than its rounds have**, those at its two ends included. -/
theorem OnTime.begins_in_window {reports : Bool} (h : OnTime p reports attempts first s past)
    (hfirst : first.failures ≤ p.maxRetries.toNat) (t span : Nat) :
    ((begins past).filter fun moment => t ≤ moment ∧ moment ≤ t + span).length
      ≤ (p.maxRetries.toNat + 1) * (span / nanosPerSecond + 1) := by
  refine length_filter_le fun i j a b hij hi ha hj hb => ?_
  obtain ⟨v, hv, rfl⟩ := h.exists_turn hi
  obtain ⟨w, hw, rfl⟩ := h.exists_turn hj
  have hearly := (of_decide_eq_true ha).1
  have hlate := (of_decide_eq_true hb).2
  exact Turn.lt_of_window hfirst hij hv hw (by omega)

/-- The first login of a worker has no failures behind it. -/
theorem Step.failures_firstTurn (p : RenewalPolicy) (now : Nat) (x : Step) :
    (x.firstTurn p now).failures = 0 := by
  cases x with
  | startFrom lease => cases lease <;> rfl
  | _ => rfl

/-! ### Counted failures -/

theorem Happening.policy_eq (h : Happening s moment k s' new) :
    s'.scheduler.policy = s.scheduler.policy := by
  cases h <;> rfl

/-- No worker counts more failures than the policy allows. -/
def Counted (s : Simulation) : Prop :=
  ∀ k w, s.scheduler.worker? k = some w →
    w.failures.toNat ≤ s.scheduler.policy.maxRetries.toNat

theorem Counted.put (h : Counted s) {w : Worker Flight} (hw : s.scheduler.worker? k = some w)
    {w' : Option (Worker Flight)}
    (hw' : ∀ v, w' = some v → v.failures.toNat ≤ s.scheduler.policy.maxRetries.toNat)
    (now : Nat) (script : List Attempt) :
    Counted { s with now, scheduler := s.scheduler.put k w', script } := by
  intro j v hj
  change (s.scheduler.put k w').worker? j = some v at hj
  by_cases hjk : j = k
  · subst hjk
    rw [Scheduler.worker?_put_self (Scheduler.lt_of_worker? hw)] at hj
    exact hw' v hj
  · rw [Scheduler.worker?_put_of_ne s.scheduler w' hjk] at hj
    exact h j v hj

theorem Counted.happening (h : Counted s) (hh : Happening s moment k s' new) : Counted s' := by
  cases hh with
  | begins hw =>
    refine h.put hw (fun v hv => ?_) _ _
    obtain rfl := Option.some.inj hv
    exact h k ⟨.timer moment, _⟩ hw
  | ends hw => exact h.put hw (fun v hv => (Scheduler.failures_afterLogin hv).1) _ _

theorem Counted.acts {x : Step} (h : Counted s) (hsole : s.scheduler.Sole)
    (hacts : Acts s x s' new) : Counted s' := by
  cases hacts with
  | rests => exact h
  | spawns _ hs =>
    intro k w hk
    change (s.scheduler.spawn (x.due s)).1.worker? k = some w at hk
    rw [Scheduler.worker?_spawn hsole hs] at hk
    split at hk
    · obtain rfl := Option.some.inj hk
      exact Nat.zero_le _
    · cases hk
  | releases =>
    intro k w hk
    cases (Scheduler.worker?_release hsole k).symm.trans hk

/-- **No worker ever counts more failures than the policy allows.** -/
theorem counted_run (policy : RenewalPolicy) (reports : Bool) (script : List Attempt)
    (afterwards : Attempt) (steps : List Step) :
    Counted ((initial policy reports script afterwards).run steps).1 :=
  (run_induction (fun s _ => Sound s ∧ Counted s)
    (fun ha h => ⟨h.1.acts ha, h.2.acts h.1.sole ha⟩)
    (fun hh h => ⟨h.1.happening hh, h.2.happening hh⟩)
    (fun h => ⟨⟨h.1.sole, h.1.gone⟩, h.2⟩)
    ⟨sound_initial policy reports script afterwards, fun k w hk => by
      simp [initial, Scheduler.worker?_eq, Scheduler.idle] at hk⟩ steps).2

/-- A failure that is followed by a repetition is counted: the count is a word, even one more. -/
theorem failures_of_repetition {now : Nat} {failures : UInt32} {f : Failure} {w : Worker Flight}
    (h : Scheduler.afterLogin p now failures (.error f) = some w) :
    failures.toNat < p.maxRetries.toNat ∧ w.failures.toNat = failures.toNat + 1 := by
  rw [Scheduler.afterLogin] at h
  split at h
  · cases h
  · rename_i hlt
    obtain rfl := Option.some.inj h
    rw [UInt32.le_iff_toNat_le] at hlt
    have hword := p.maxRetries.toNat_lt
    have hone : (1 : UInt32).toNat = 1 := rfl
    refine ⟨Nat.lt_of_not_le hlt, ?_⟩
    rw [UInt32.toNat_add]
    omega

/-! ### Due events -/

/-- So many events that are due by a moment happen, one after the other. -/
inductive Drains (t : Nat) : Nat → Simulation → Simulation → Prop where
  /-- None happens. -/
  | rests (s : Simulation) : Drains t 0 s s
  /-- The next one happens, and then the others. -/
  | happens {n : Nat} {s u : Simulation} {moment k : Nat} (hnext : s.next? = some (moment, k))
    (hdue : moment ≤ t) (hrest : Drains t n (s.happen moment k).1 u) : Drains t (n + 1) s u

/-- No more events are due than the workers can still bring about. -/
theorem Drains.le_timeLeft (h : Drains t n s u) : n + timeLeft t u ≤ timeLeft t s := by
  induction h with
  | rests => exact Nat.le_of_eq (Nat.zero_add _)
  | happens hnext hdue _ ih =>
    have hless := timeLeft_happen hnext hdue
    omega

theorem Drains.counted (h : Drains t n s u) (hs : Counted s) : Counted u := by
  induction h with
  | rests => exact hs
  | happens hnext _ _ ih => exact ih (hs.happening (happening_of_next? hnext))

theorem Drains.policy_eq (h : Drains t n s u) : u.scheduler.policy = s.scheduler.policy := by
  induction h with
  | rests => rfl
  | happens hnext _ _ ih =>
    exact ih.trans (happening_of_next? hnext).policy_eq

/-- **What is due comes to an end**, and then time has passed as it should. -/
theorem exists_drained (t : Nat) (s : Simulation) :
    ∃ n u, Drains t n s u ∧ (∀ moment k, u.next? = some (moment, k) → t < moment) ∧
      (runUntil t s).1 = { u with now := max u.now t } := by
  fun_induction runUntil t s with
  | case1 s hnone =>
    refine ⟨0, s, .rests s, fun moment k hnext => ?_, rfl⟩
    rw [hnone] at hnext
    cases hnext
  | case2 s moment k hsome hle rest ih =>
    obtain ⟨n, u, hdrains, hlast, heq⟩ := ih
    exact ⟨n + 1, u, .happens hsome hle hdrains, hlast, heq⟩
  | case3 s moment k hsome hgt =>
    refine ⟨0, s, .rests s, fun later j hnext => ?_, rfl⟩
    rw [hsome] at hnext
    obtain ⟨rfl, -⟩ := Prod.mk.inj (Option.some.inj hnext)
    exact Nat.lt_of_not_le hgt

/-- **A worker cannot spin.** However a run came to where a scheduler is there and does not run, and
whatever its policy and its logins: from a start on, as long as the worker is left to itself, there
is at most one round of logins more in a window than it has whole seconds, each with as many
repetitions as the policy allows, and at one instant there is one round at most. What is due by a
moment always comes to an end, and in every state between two events no worker counts more failures
than the policy allows, so that the count of a repetition is never too great for a word. -/
theorem no_bursts {policy : RenewalPolicy} {reports : Bool} {script : List Attempt}
    {afterwards : Attempt} {before : List Step}
    (hrun : (initial policy reports script afterwards).run before = (s, past))
    {x : Step} {rest : List Step} (hidle : s.isRunning = some false) (hstart : x.isStart = true)
    (hrest : (s.step x).1.undisturbed rest = true) :
    let begun := begins (s.run (x :: rest)).2
    (∀ t millis,
        (begun.filter fun moment => t ≤ moment ∧ moment ≤ t + millis * nanosPerMilli).length
          ≤ (policy.maxRetries.toNat + 1) * (millis / 1000 + 1)) ∧
      (∀ t, begun.count t ≤ policy.maxRetries.toNat + 1) ∧
      (∀ t v, (∀ n u, Drains t n v u → n ≤ timeLeft t v) ∧
        ∃ n u, Drains t n v u ∧ (∀ moment k, u.next? = some (moment, k) → t < moment) ∧
          (runUntil t v).1 = { u with now := max u.now t }) ∧
      (∀ steps y t n u,
        Drains t n (((initial policy reports script afterwards).run steps).1.act y).1 u →
          ∀ k w, u.scheduler.worker? k = some w → w.failures.toNat ≤ policy.maxRetries.toNat ∧
            ∀ now f w', Scheduler.afterLogin policy now w.failures (.error f)
                = (some w' : Option (Worker Flight)) →
              w'.failures.toNat = w.failures.toNat + 1) := by
  intro begun
  have hlater := (onTime_run hrun hidle hstart hrest).1
  have hfirst : (x.firstTurn policy s.now).failures ≤ policy.maxRetries.toNat := by
    rw [Step.failures_firstTurn]
    exact Nat.zero_le _
  refine ⟨fun t millis => ?_, fun t => ?_, fun t v => ⟨fun n u h => ?_, exists_drained t v⟩,
    fun steps y t n u h k w hw => ⟨?_, fun now f w' h' => (failures_of_repetition h').2⟩⟩
  · have hwindow := hlater.begins_in_window hfirst t (millis * nanosPerMilli)
    have hseconds : millis * nanosPerMilli / nanosPerSecond = millis / 1000 :=
      Nat.mul_div_mul_right millis 1000 (by decide : 0 < nanosPerMilli)
    rwa [hseconds] at hwindow
  · have hinstant := hlater.begins_in_window hfirst t 0
    rw [Nat.zero_div, Nat.zero_add, Nat.mul_one] at hinstant
    have hsame : ∀ moment ∈ begun,
        (moment == t) = decide (t ≤ moment ∧ moment ≤ t + 0) := by
      intro moment _
      rw [Bool.eq_iff_iff, beq_iff_eq, decide_eq_true_iff]
      omega
    rw [List.count, List.countP_eq_length_filter, List.filter_congr hsame]
    exact hinstant
  · have hless := h.le_timeLeft
    omega
  · have hplanned := planned_run policy reports script afterwards steps
    have hsound := sound_run (sound_initial policy reports script afterwards) steps
    have hcounted := counted_run policy reports script afterwards steps
    have hacts := acts_act ((initial policy reports script afterwards).run steps).1 y
    have hpolicy := h.policy_eq.trans (hplanned.acts hacts).policy
    rw [← hpolicy]
    exact h.counted (hcounted.acts hsound.sole hacts) k w hw

/-- The logins of a server that refuses twice, and then issues tokens that expire at once. -/
def refusedTwice : Simulation × List Notice :=
  (initial { RenewalPolicy.usual with maxRetries := 2, retryDelay := .ofSecs 0 } false
    [⟨0, some (.error ⟨.network, "gone"⟩)⟩, ⟨0, some (.error ⟨.network, "gone"⟩)⟩]
    ⟨0, some (.ok (some 0))⟩).run []

/-- A login and its two repetitions begin at one instant, and no more than these. -/
theorem no_bursts_refusedTwice :
    (begins (refusedTwice.1.run [.start, .sleep (5 * nanosPerSecond)]).2).count 0 ≤ 3 ∧
      (begins (refusedTwice.1.run [.start, .sleep (5 * nanosPerSecond)]).2)
        = [0, 0, 0, nanosPerSecond, 2 * nanosPerSecond, 3 * nanosPerSecond, 4 * nanosPerSecond,
          5 * nanosPerSecond] := by
  have hidle : refusedTwice.1.isRunning = some false := by decide +kernel
  have hrest : (refusedTwice.1.step .start).1.undisturbed [.sleep (5 * nanosPerSecond)] = true := by
    decide +kernel
  have h := no_bursts (x := .start) (show _ = (refusedTwice.1, refusedTwice.2) from rfl) hidle rfl
    hrest
  exact ⟨h.2.1 0, by decide +kernel⟩

end Simulation

end VaultTokens.Renewal
