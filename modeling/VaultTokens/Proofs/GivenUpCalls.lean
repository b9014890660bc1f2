import VaultTokens.Proofs.CallOrigins
import VaultTokens.Proofs.SharedLogin

/-!
# Calls that are given up

A call can be given up wherever it is: in the line, with the guard, or while it waits for the reply
to its request. From then on it is over: nothing more is heard of it, it stands in nobody's way, and
those that are left go on. What it has recorded stays, and a call that is given up before that never
records anything; the standing is the one that the last recorded exchange has left.

## Main results

* `over_run` — nothing more is heard of a call that is over
* `Orderly.exists_turn` — somebody can go on for as long as a call is not over
* `recorded_run` — a call that is before its record has recorded nothing
* `lastExchange_run` — the standing is the one that the last recorded exchange has left
-/

namespace VaultTokens

namespace Authenticator

variable {m : Method} {env : Surroundings} {a a' b : Authenticator} {e : Event}
  {past new : List Notice} {i j k : Nat} {c : Call} {phase : Phase}

/-! ### Calls that are over -/

/-- A call never has more steps to take than before. -/
theorem Change.stepsLeft_call (hchange : Change m env a e b new) (hc : a.calls[i]? = some c) :
    ∃ c', b.calls[i]? = some c' ∧ c'.phase.stepsLeft ≤ c.phase.stepsLeft := by
  by_cases hi : e.call? = some i
  · have goes : ∀ {d : Demand} {phase next : Phase}, a.calls[i]? = some ⟨d, phase⟩ →
        b.calls = (a.enter i next).calls → next.stepsLeft ≤ phase.stepsLeft →
        ∃ c', b.calls[i]? = some c' ∧ c'.phase.stepsLeft ≤ c.phase.stepsLeft := by
      intro d phase next hc' hb hle
      obtain rfl := Option.some.inj (hc'.symm.trans hc)
      exact ⟨_, by rw [hb, calls_enter_self hc' next], hle⟩
    cases hchange with
    | nothing => exact ⟨c, hc, Nat.le_refl _⟩
    | begins => cases hi
    | enters hc' =>
      rename_i j seen d hhead
      obtain rfl := Option.some.inj hi
      refine goes hc' rfl ?_
      rcases admitted_cases m env a d seen with hp | ⟨answer, hp⟩ <;> rw [hp] <;>
        simp [Phase.stepsLeft]
    | records hc' =>
      rename_i j d o
      obtain rfl := Option.some.inj hi
      exact goes hc' rfl (by cases d <;> simp [Phase.stepsLeft, afterRecording])
    | yields hc' =>
      obtain rfl := Option.some.inj hi
      exact goes hc' rfl (Nat.zero_le _)
    | looks hc' | serves hc' | passes hc' | joins hc' | sends hc' | lacks hc' | hears _ hc'
    | leaves hc' | turns hc' | reads hc' =>
      obtain rfl := Option.some.inj hi
      exact goes hc' rfl (by simp [Phase.stepsLeft])
  · exact ⟨c, hchange.calls_eq_of_ne hc hi, Nat.le_refl _⟩

theorem Phase.isOver_iff : phase.isOver = true ↔ phase.stepsLeft = 0 := by
  cases phase <;> simp [Phase.isOver, Phase.stepsLeft]

/-- **A call that is over stays so, and nothing more is heard of it.** -/
theorem Change.over (hchange : Change m env a e b new) (hc : a.calls[i]? = some c)
    (hover : c.phase.isOver = true) :
    (∃ c', b.calls[i]? = some c' ∧ c'.phase.isOver = true) ∧ ∀ n ∈ new, n.call ≠ i := by
  constructor
  · obtain ⟨c', hc', hle⟩ := hchange.stepsLeft_call hc
    rw [Phase.isOver_iff.mp hover] at hle
    exact ⟨c', hc', Phase.isOver_iff.mpr (Nat.le_zero.mp hle)⟩
  · rintro n hn rfl
    have hi := hchange.call?_eq_of_mem hn
    cases hchange with
    | nothing | begins | looks | passes | joins | turns | yields => cases hn
    | serves hc' | enters hc' | sends hc' | lacks hc' | hears _ hc' | records hc' | leaves hc'
    | reads hc' =>
      obtain rfl := Option.some.inj hi
      rw [← Option.some.inj (hc'.symm.trans hc)] at hover
      cases hover

/-- Nothing more is heard of a call that is over. -/
theorem over_run (hc : a.calls[i]? = some c) (hover : c.phase.isOver = true) (m : Method)
    (events : List (Surroundings × Event)) :
    (∃ c', (a.run m events).1.calls[i]? = some c' ∧ c'.phase.isOver = true) ∧
      ∀ n ∈ (a.run m events).2, n.call ≠ i := by
  refine run_induction (fun b past => (∃ c', b.calls[i]? = some c' ∧ c'.phase.isOver = true) ∧
    ∀ n ∈ past, n.call ≠ i) ?_ ⟨⟨c, hc, hover⟩, List.forall_mem_nil _⟩
  rintro env e - a b past new hchange ⟨⟨c, hc, hover⟩, hpast⟩
  obtain ⟨hc', hnew⟩ := hchange.over hc hover
  refine ⟨hc', fun n hn => ?_⟩
  rcases List.mem_append.mp hn with hn | hn
  · exact hpast n hn
  · exact hnew n hn

/-- A call that is over does not stand in the line. -/
theorem Orderly.not_mem_of_isOver (h : Orderly a) (hc : a.calls[i]? = some c)
    (hover : c.phase.isOver = true) : i ∉ a.line := by
  intro hi
  obtain ⟨c', hc', hin⟩ := h.phased i hi
  rw [← Option.some.inj (hc.symm.trans hc'), (Phase.of_isOver hover).1] at hin
  cases hin

/-- **While a call is not over, some call can take a step or waits for a reply.** -/
theorem Orderly.exists_turn (h : Orderly a) (hc : a.calls[i]? = some c)
    (hlive : c.phase.isOver = false) :
    ∃ j, a.isReady j = true ∨ (a.pending? j).isSome = true := by
  refine Classical.byContradiction fun hnone => ?_
  have hready : ∀ j, a.isReady j = false := by
    intro j
    rw [← Bool.not_eq_true]
    exact fun hj => hnone ⟨j, .inl hj⟩
  have hpending : ∀ j, a.pending? j = none := by
    intro j
    rw [← Option.not_isSome_iff_eq_none]
    exact fun hj => hnone ⟨j, .inr hj⟩
  exact absurd (hlive.symm.trans (h.isOver_of_still hready hpending hc)) Bool.false_ne_true

/-- A call that is given up is over. -/
theorem isOver_cancel (hc : a.calls[i]? = some c) :
    ∃ c', (a.cancel i).calls[i]? = some c' ∧ c'.phase.isOver = true := by
  rw [cancel, hc]
  obtain ⟨d, phase⟩ := c
  cases phase with
  | finished answer => exact ⟨_, hc, rfl⟩
  | _ => exact ⟨_, calls_enter_self hc .cancelled, rfl⟩

/-! ### What a call has recorded -/

theorem mem_recordings {time : Timestamp} {o : Except Failure Issued} :
    (i, time, o) ∈ recordings past ↔ .recorded i time o ∈ past := by
  rw [recordings, List.mem_filterMap]
  constructor
  · rintro ⟨n, hn, heq⟩
    cases n with
    | recorded =>
      cases heq
      exact hn
    | _ => cases heq
  · intro hn
    exact ⟨_, hn, rfl⟩

/-- Whether a call in this phase has yet to record an exchange: it stands in the line or goes there,
or its exchange is under way. -/
def Phase.isUnrecorded : Phase → Bool
  | .begun | .arriving _ | .waiting _ | .presenting | .exchanging _ | .recording _ => true
  | _ => false

theorem Phase.isUnrecorded_iff : phase.isUnrecorded = true ↔ 2 < phase.stepsLeft := by
  cases phase <;> simp [Phase.isUnrecorded, Phase.stepsLeft]

/-- **Who has recorded an exchange is past it**: a call that has yet to record one has recorded
nothing. -/
theorem recorded_run (m : Method) (events : List (Surroundings × Event)) :
    ∀ r ∈ recordings (initial.run m events).2, ∃ c,
      (initial.run m events).1.calls[r.1]? = some c ∧ c.phase.isUnrecorded = false := by
  have behind : ∀ {phase : Phase}, phase.stepsLeft ≤ 2 → phase.isUnrecorded = false := by
    intro phase hle
    rw [← Bool.not_eq_true, Phase.isUnrecorded_iff]
    exact Nat.not_lt_of_le hle
  refine run_induction (fun b past => ∀ r ∈ recordings past,
    ∃ c, b.calls[r.1]? = some c ∧ c.phase.isUnrecorded = false) ?_ (List.forall_mem_nil _)
  rintro env e - a b past new hchange h r hr
  rw [recordings_append] at hr
  rcases List.mem_append.mp hr with hr | hr
  · obtain ⟨c, hc, hrecorded⟩ := h r hr
    obtain ⟨c', hc', hle⟩ := hchange.stepsLeft_call hc
    rw [← Bool.not_eq_true, Phase.isUnrecorded_iff] at hrecorded
    exact ⟨c', hc', behind (Nat.le_trans hle (Nat.le_of_not_lt hrecorded))⟩
  · cases hchange with
    | @records i d o hc =>
      obtain rfl := List.mem_singleton.mp hr
      exact ⟨_, calls_enter_self hc _, behind (by cases d <;> exact Nat.le_refl 2)⟩
    | _ => cases hr

/-- The standing of a strategy is the one that the last exchange to be recorded has left. -/
inductive LastExchange (m : Method) (a : Authenticator) (events : List (Surroundings × Event)) :
    Prop where
  /-- None has been recorded. -/
  | none (hnone : recordings (a.run m events).2 = [])
    (hstanding : (a.run m events).1.standing = a.standing)
  /-- A call has recorded one, and none has been recorded since. -/
  | some {before after : List (Surroundings × Event)} {env : Surroundings} {e : Event} {i : Nat}
    {o : Except Failure Issued} (hevents : events = before ++ (env, e) :: after)
    (hlast : ((a.run m before).1.step m env e).2 = [.recorded i env.now o])
    (hnone : recordings (((a.run m before).1.step m env e).1.run m after).2 = [])
    (hstanding : (a.run m events).1.standing = (a.run m before).1.standing.record env.now o)

/-- **The standing is the one that the last recorded exchange has left.** -/
theorem lastExchange_run (m : Method) (a : Authenticator) (events : List (Surroundings × Event)) :
    LastExchange m a events := by
  induction events generalizing a with
  | nil => exact .none rfl rfl
  | cons x rest ih =>
    obtain ⟨env, e⟩ := x
    have hchange := change_step m env a e
    cases ih (a.step m env e).1 with
    | none hnone hstanding =>
      rcases hchange.recordings_new with hnew | ⟨i, d, o, -, hnew⟩
      · refine .none ?_ ?_
        · rw [run_cons, recordings_append, hnew, hnone]
          rfl
        · rw [run_cons, hstanding, standing_step, outcomes_eq_map_recordings, hnew]
          rfl
      · have hone : (a.step m env e).2 = [.recorded i env.now o] := by
          generalize (a.step m env e).1 = b, (a.step m env e).2 = new at hchange hnew ⊢
          cases hchange with
          | records hc =>
            obtain ⟨rfl, heq⟩ := Prod.mk.inj (List.cons.inj hnew).1
            obtain ⟨-, rfl⟩ := Prod.mk.inj heq
            rfl
          | _ => cases hnew
        refine @LastExchange.some m a _ [] rest env e i o rfl hone hnone ?_
        rw [run_cons, hstanding, standing_step, hone]
        rfl
    | some hevents hlast hnone hstanding =>
      subst hevents
      exact @LastExchange.some m a _ ((env, e) :: _) _ _ _ _ _ rfl hlast hnone hstanding

end Authenticator

end VaultTokens
