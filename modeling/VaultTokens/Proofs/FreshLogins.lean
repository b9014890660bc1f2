import VaultTokens.Proofs.GivenUpCalls
import VaultTokens.Proofs.ServedTokens

/-!
# Logins are fresh

A login looks twice at what has been recorded: first when it begins, and again when it has got the
guard. It takes over the result of another call only if the last exchange to be recorded before the
second look succeeded and was recorded after the first one. Otherwise it has an exchange of its own,
and nobody else records anything until that is recorded. Either way a token that a login returns
comes of an exchange that was recorded after the login began.

What the two looks find is read off the run: `IsTurn` says after which events they are taken.

## Main results

* `exists_turn_of_finished` — a login that is over has looked twice
* `exchanged_run` — who holds the guard records the next exchange
* `succeededSince_run_eq_some_iff` — what the second look finds
* `fresh_logins` — where the tokens of logins come from, in any run
-/

namespace VaultTokens

/-- Whether the failures count to zero tells whether the last exchange succeeded. -/
theorem Standing.Reflects.failures_eq_zero_iff {s : Standing} {time : Timestamp}
    {o : Except Failure Issued} {older : List (Timestamp × Except Failure Issued)}
    (h : s.Reflects ((time, o) :: older)) : s.failures = 0 ↔ ∃ issued, o = .ok issued := by
  have hfailures := h.failures
  rw [← UInt32.toNat_inj, hfailures]
  cases o with
  | ok issued => simp [failuresSince]
  | error f => simp [failuresSince]

namespace Authenticator

variable {m : Method} {env : Surroundings} {a b : Authenticator} {e : Event}
  {past new : List Notice} {i seen : Nat} {c : Call} {phase : Phase}
  {looked held : List (Nat × Timestamp × Except Failure Issued)}

/-! ### What a look finds -/

/-- A strategy keeps count of what was recorded, and its standing reflects it. -/
structure Tallied (a : Authenticator) (past : List Notice) : Prop where
  /-- The count is that of the records. -/
  recorded : a.recorded = (recordings past).length
  /-- The standing is the history. -/
  reflects : a.standing.Reflects (history past)

theorem Tallied.step (h : Tallied a past) (hchange : Change m env a e b new) :
    Tallied b (past ++ new) := by
  refine ⟨?_, hchange.reflects h.reflects⟩
  rw [recordings_append, List.length_append, ← h.recorded]
  cases hchange <;> rfl

theorem tallied_run (m : Method) (events : List (Surroundings × Event)) :
    Tallied (initial.run m events).1 (initial.run m events).2 :=
  run_induction Tallied (fun _ _ _ _ _ hchange h => h.step hchange)
    ⟨rfl, Standing.reflects_initial⟩

/-- **What the second look finds**: the last record, if it is that of a success and has come since
the first look. -/
theorem Tallied.succeededSince_eq_some_iff (h : Tallied a past)
    (hseen : seen ≤ (recordings past).length) {issued : Issued} :
    a.succeededSince seen = some issued ↔ ∃ older w time found,
      recordings past = older ++ [(w, time, .ok found)] ∧ seen ≤ older.length ∧
        issued = (Lease.grant found time).issued := by
  have hreflects := h.reflects
  have hrecorded := h.recorded
  rcases (recordings past).eq_nil_or_concat' with hnil | ⟨older, ⟨w, time, o⟩, hlast⟩
  · rw [hnil] at hseen hrecorded ⊢
    have hseen : a.recorded = seen := hrecorded.trans (Nat.le_zero.mp hseen).symm
    simp [succeededSince, hseen]
  · have hhistory : history past = (time, o) :: (older.map Prod.snd).reverse := by
      rw [history, hlast]
      simp
    rw [hhistory] at hreflects
    rw [hlast, List.length_append, List.length_singleton] at hrecorded hseen
    rw [hlast]
    cases o with
    | error f =>
      have hfailures : a.standing.failures ≠ 0 := by
        rw [Ne, hreflects.failures_eq_zero_iff]
        simp
      simp [succeededSince, hfailures]
    | ok found =>
      have hfailures : a.standing.failures = 0 := hreflects.failures_eq_zero_iff.mpr ⟨found, rfl⟩
      have hlease : a.standing.lease = some (Lease.grant found time) := hreflects.lease
      have hlook : a.succeededSince seen
          = if seen ≤ older.length then some (Lease.grant found time).issued else none := by
        rw [succeededSince, hrecorded, hfailures, hlease]
        by_cases hle : seen ≤ older.length
        · rw [if_pos hle, if_neg (by simp; omega)]
          rfl
        · rw [if_neg hle, if_pos (.inl (by omega))]
      rw [hlook]
      constructor
      · intro hsome
        split at hsome
        · rename_i hle
          exact ⟨older, w, time, found, rfl, hle, (Option.some.inj hsome).symm⟩
        · cases hsome
      · rintro ⟨older', w', time', found', heq, hle, rfl⟩
        obtain ⟨rfl, hone⟩ := List.append_inj' heq rfl
        cases hone
        rw [if_pos hle]

/-! ### The two looks -/

/-- The turn of a login: it looks for the first time behind the events `first`, and gets the guard
with the next event behind those of `second`. -/
structure IsTurn (m : Method) (i : Nat) (first : List (Surroundings × Event)) (env : Surroundings)
    (second : List (Surroundings × Event)) : Prop where
  /-- It has looked at nothing yet. -/
  begun : (initial.run m first).1.calls[i]? = some ⟨.login, .begun⟩
  /-- It has looked and waits. -/
  waiting : ∃ seen, (initial.run m (first ++ (env, .advance i) :: second)).1.calls[i]?
    = some ⟨.login, .waiting seen⟩
  /-- It is the first in line. -/
  head : (initial.run m (first ++ (env, .advance i) :: second)).1.line.head? = some i

/-- Whether a call in this phase has looked once. -/
def Phase.hasLooked : Phase → Bool
  | .arriving _ | .waiting _ => true
  | _ => false

/-- What a call has seen stays with it until it gets the guard. -/
def Phase.Remembers (seen : Nat) (phase : Phase) : Prop :=
  phase = .arriving seen ∨ phase = .waiting seen ∨ phase.stepsLeft ≤ 5

theorem Change.remembers (hchange : Change m env a e b new) (hc : a.calls[i]? = some c)
    (h : c.phase.Remembers seen) : ∃ c', b.calls[i]? = some c' ∧ c'.phase.Remembers seen := by
  by_cases hi : e.call? = some i
  · have goes : ∀ {phase next : Phase} {d : Demand}, a.calls[i]? = some ⟨d, phase⟩ →
        b.calls = (a.enter i next).calls → next.Remembers seen →
        ∃ c', b.calls[i]? = some c' ∧ c'.phase.Remembers seen := by
      intro phase next d hc' hb hnext
      exact ⟨_, by rw [hb, calls_enter_self hc' next], hnext⟩
    cases hchange with
    | nothing => exact ⟨c, hc, h⟩
    | begins => cases hi
    | looks hc' =>
      obtain rfl := Option.some.inj hi
      rw [← Option.some.inj (hc'.symm.trans hc)] at h
      simp [Phase.Remembers, Phase.stepsLeft] at h
    | joins hc' =>
      rename_i j seen' d
      obtain rfl := Option.some.inj hi
      rw [← Option.some.inj (hc'.symm.trans hc)] at h
      obtain rfl : seen' = seen := by simpa [Phase.Remembers, Phase.stepsLeft] using h
      exact goes hc' rfl (.inr (.inl rfl))
    | enters hc' =>
      rename_i j seen' d hhead
      obtain rfl := Option.some.inj hi
      refine goes hc' rfl (.inr (.inr ?_))
      rcases admitted_cases m env a d seen' with hp | ⟨answer, hp⟩ <;> rw [hp] <;>
        simp [Phase.stepsLeft]
    | records hc' =>
      rename_i j d o
      obtain rfl := Option.some.inj hi
      exact goes hc' rfl (.inr (.inr (by cases d <;> simp [Phase.stepsLeft, afterRecording])))
    | serves hc' | passes hc' | sends hc' | lacks hc' | hears _ hc' | leaves hc' | turns hc'
    | reads hc' | yields hc' =>
      obtain rfl := Option.some.inj hi
      exact goes hc' rfl (.inr (.inr (by simp [Phase.stepsLeft])))
  · exact ⟨c, hchange.calls_eq_of_ne hc hi, h⟩

theorem remembers_run (hc : a.calls[i]? = some c) (h : c.phase.Remembers seen) (m : Method)
    (events : List (Surroundings × Event)) :
    ∃ c', (a.run m events).1.calls[i]? = some c' ∧ c'.phase.Remembers seen := by
  refine run_induction (fun a _ => ∃ c', a.calls[i]? = some c' ∧ c'.phase.Remembers seen)
    ?_ ⟨c, hc, h⟩
  rintro env e - a b past new hchange ⟨c, hc, h⟩
  exact hchange.remembers hc h

/-- A call that goes to a phase is in it. -/
theorem eq_of_calls_enter {d : Demand} {before after : Phase}
    (ha : a.calls[i]? = some ⟨d, before⟩) (hb : b.calls[i]? = some c)
    (hcalls : b.calls = (a.enter i after).calls) : c = ⟨d, after⟩ := by
  rw [hcalls, calls_enter_self ha] at hb
  exact (Option.some.inj hb).symm

/-- Only by its first look does a call come to have looked. -/
theorem Change.of_hasLooked (hchange : Change m env a e b new)
    (ha : ∀ c, a.calls[i]? = some c → c.phase.hasLooked = false) (hb : b.calls[i]? = some c)
    (hlooked : c.phase.hasLooked = true) :
    e = .advance i ∧ a.calls[i]? = some ⟨c.demand, .begun⟩ := by
  rcases hchange.calls_cases hb with hi | hold | hbegun
  · cases hchange with
    | nothing => exact absurd ((ha c hb).symm.trans hlooked) Bool.false_ne_true
    | begins => cases hi
    | looks hc =>
      obtain rfl := Option.some.inj hi
      rw [eq_of_calls_enter hc hb rfl]
      exact ⟨rfl, hc⟩
    | joins hc | enters hc =>
      obtain rfl := Option.some.inj hi
      cases ha _ hc
    | records hc =>
      rename_i j d o
      obtain rfl := Option.some.inj hi
      rw [eq_of_calls_enter hc hb rfl] at hlooked
      cases d <;> cases hlooked
    | serves hc | passes hc | sends hc | lacks hc | hears _ hc | leaves hc | turns hc | reads hc
    | yields hc =>
      obtain rfl := Option.some.inj hi
      rw [eq_of_calls_enter hc hb rfl] at hlooked
      cases hlooked
  · exact absurd ((ha c hold).symm.trans hlooked) Bool.false_ne_true
  · rw [hbegun] at hlooked
    cases hlooked

/-- Calls keep to their demands. -/
theorem demand_run (hc : a.calls[i]? = some c) (m : Method) (events : List (Surroundings × Event)) :
    ∃ phase, (a.run m events).1.calls[i]? = some ⟨c.demand, phase⟩ := by
  refine run_induction (fun a _ => ∃ phase, a.calls[i]? = some ⟨c.demand, phase⟩) ?_ ⟨c.phase, hc⟩
  rintro env e - a b past new hchange ⟨phase, hc⟩
  have hb := hchange.exists_call hc
  exact hb

/-- A call that has looked once did so at some event. -/
theorem exists_look (m : Method) {events : List (Surroundings × Event)}
    (ha : ∀ c, a.calls[i]? = some c → c.phase.hasLooked = false)
    (hc : (a.run m events).1.calls[i]? = some c) (hlooked : c.phase.hasLooked = true) :
    ∃ first env second, events = first ++ (env, .advance i) :: second ∧
      (a.run m first).1.calls[i]? = some ⟨c.demand, .begun⟩ := by
  induction events generalizing a with
  | nil => exact absurd ((ha c hc).symm.trans hlooked) Bool.false_ne_true
  | cons x rest ih =>
    obtain ⟨env, e⟩ := x
    rw [run_cons] at hc
    by_cases hb : ∀ c, (a.step m env e).1.calls[i]? = some c → c.phase.hasLooked = false
    · obtain ⟨first, env', second, rfl, hbegun⟩ := ih hb hc
      exact ⟨(env, e) :: first, env', second, rfl, hbegun⟩
    · -- the call looks with this very event
      obtain ⟨c', hc', hlooked'⟩ : ∃ c', (a.step m env e).1.calls[i]? = some c' ∧
          c'.phase.hasLooked = true := by
        simpa using hb
      obtain ⟨rfl, hbegun⟩ := (change_step m env a e).of_hasLooked ha hc' hlooked'
      obtain ⟨phase, hlast⟩ := demand_run hc' m rest
      obtain rfl := Option.some.inj (hlast.symm.trans hc)
      exact ⟨[], env, rest, rfl, hbegun⟩

/-- What is let known is let known at some event. -/
theorem exists_event_of_mem (m : Method) (a : Authenticator) {events : List (Surroundings × Event)}
    {n : Notice} (hn : n ∈ (a.run m events).2) :
    ∃ before env e rest, events = before ++ (env, e) :: rest ∧
      n ∈ ((a.run m before).1.step m env e).2 := by
  induction events generalizing a with
  | nil => cases hn
  | cons x rest ih =>
    obtain ⟨env, e⟩ := x
    rw [run_cons] at hn
    rcases List.mem_append.mp hn with hn | hn
    · exact ⟨[], env, e, rest, rfl, hn⟩
    · obtain ⟨before, env', e', rest', rfl, hmem⟩ := ih (a.step m env e).1 hn
      exact ⟨(env, e) :: before, env', e', rest', rfl, hmem⟩

/-- Every login that is past the line, and was not given up, has got the guard. -/
def LoginsGranted (a : Authenticator) (past : List Notice) : Prop :=
  ∀ i c, a.calls[i]? = some c → c.demand = .login → c.phase.isPast = true →
    c.phase ≠ .cancelled → i ∈ grants past

theorem loginsGranted_initial : LoginsGranted initial [] := by
  intro i c hc
  cases hc

theorem LoginsGranted.step (h : LoginsGranted a past) (hchange : Change m env a e b new) :
    LoginsGranted b (past ++ new) := by
  intro i c hc hlogin hpast hlive
  have old : ∀ {c' : Call}, a.calls[i]? = some c' → c'.demand = .login → c'.phase.isPast = true →
      c'.phase ≠ .cancelled → i ∈ grants (past ++ new) := by
    intro c' hc' hlogin hpast hlive
    rw [grants_append]
    exact List.mem_append_left _ (h i c' hc' hlogin hpast hlive)
  rcases hchange.calls_cases hc with hi | hold | hbegun
  · cases hchange with
    | nothing => exact old hc hlogin hpast hlive
    | begins => cases hi
    | looks ha | joins ha =>
      obtain rfl := Option.some.inj hi
      rw [eq_of_calls_enter ha hc rfl] at hpast
      cases hpast
    | serves ha | passes ha =>
      obtain rfl := Option.some.inj hi
      rw [eq_of_calls_enter ha hc rfl] at hlogin
      cases hlogin
    | enters ha =>
      obtain rfl := Option.some.inj hi
      rw [grants_append]
      exact List.mem_append_right _ List.mem_cons_self
    | yields ha =>
      obtain rfl := Option.some.inj hi
      rw [eq_of_calls_enter ha hc rfl] at hlive
      exact absurd rfl hlive
    | sends ha | lacks ha | hears _ ha | records ha | leaves ha | turns ha | reads ha =>
      obtain rfl := Option.some.inj hi
      rw [eq_of_calls_enter ha hc rfl] at hlogin
      exact old ha hlogin rfl nofun
  · exact old hold hlogin hpast hlive
  · rw [hbegun] at hpast
    cases hpast

/-- A login that is past the line has got the guard, unless it was given up. -/
theorem loginsGranted_run (m : Method) (events : List (Surroundings × Event)) :
    LoginsGranted (initial.run m events).1 (initial.run m events).2 :=
  run_induction LoginsGranted (fun _ _ _ _ _ hchange h => h.step hchange) loginsGranted_initial

/-- **A login that is over has looked twice.** -/
theorem exists_turn_of_finished (m : Method) {events : List (Surroundings × Event)}
    {answer : Answer} (hc : (initial.run m events).1.calls[i]? = some ⟨.login, .finished answer⟩) :
    ∃ first env second env' rest,
      events = first ++ (env, .advance i) :: second ++ (env', .advance i) :: rest ∧
        IsTurn m i first env second := by
  have hgranted := mem_grants.mp (loginsGranted_run m events i _ hc rfl rfl nofun)
  obtain ⟨before, env', e, rest, rfl, hnew⟩ := exists_event_of_mem m initial hgranted
  -- the guard is given to a call that waits at the head of the line
  obtain ⟨d, seen, he, hwaiting, hhead⟩ : ∃ d seen, e = .advance i ∧
      (initial.run m before).1.calls[i]? = some ⟨d, .waiting seen⟩ ∧
        (initial.run m before).1.line.head? = some i := by
    have hchange := change_step m env' (initial.run m before).1 e
    generalize ((initial.run m before).1.step m env' e).1 = b,
      ((initial.run m before).1.step m env' e).2 = new at hchange hnew
    cases hchange with
    | enters ha hi =>
      obtain rfl := Notice.granted.inj (List.mem_singleton.mp hnew)
      exact ⟨_, _, rfl, ha, hi⟩
    | nothing | begins | looks | passes | joins | turns | yields => cases hnew
    | serves | sends | lacks | hears | records | leaves | reads =>
      cases List.mem_singleton.mp hnew
  subst he
  obtain rfl : d = .login := by
    obtain ⟨phase, hlast⟩ := demand_run hwaiting m ((env', .advance i) :: rest)
    rw [run_append, hlast] at hc
    exact congrArg Call.demand (Option.some.inj hc)
  obtain ⟨first, env, second, rfl, hbegun⟩ :=
    exists_look m (by simp [initial]) hwaiting rfl
  exact ⟨first, env, second, env', rest, rfl, hbegun, ⟨seen, hwaiting⟩, hhead⟩

/-! ### With the guard -/

theorem mem_posts_append (h : i ∈ posts past) (new : List Notice) : i ∈ posts (past ++ new) := by
  rw [posts_append]
  exact List.mem_append_left _ h

theorem recordings_append_of_eq_nil (hnew : recordings new = []) (h : recordings past = held) :
    recordings (past ++ new) = held := by
  rw [recordings_append, hnew, List.append_nil, h]

/-- The next exchange recorded is that of a call, which has sent a request if it succeeded. -/
def RecordsNext (i : Nat) (held : List (Nat × Timestamp × Except Failure Issued))
    (past : List Notice) (o : Except Failure Issued) : Prop :=
  (∃ time newer, recordings past = held ++ (i, time, o) :: newer) ∧
    ∀ issued, o = .ok issued → i ∈ posts past

/-- What is known about a login that has got the guard and has an exchange of its own. -/
def Exchanged (i : Nat) (held : List (Nat × Timestamp × Except Failure Issued))
    (past : List Notice) : Phase → Prop
  | .presenting => recordings past = held
  | .exchanging _ => recordings past = held ∧ i ∈ posts past
  | .recording o => recordings past = held ∧ ∀ issued, o = .ok issued → i ∈ posts past
  | .leaving answer => ∃ o, answer = some (.issued o) ∧ RecordsNext i held past o
  | .finished answer => ∃ o, answer = .issued o ∧ RecordsNext i held past o
  | .cancelled => True
  | _ => False

theorem RecordsNext.append {o : Except Failure Issued} (h : RecordsNext i held past o)
    (new : List Notice) : RecordsNext i held (past ++ new) o := by
  obtain ⟨⟨time, newer, hrecords⟩, hsent⟩ := h
  refine ⟨⟨time, newer ++ recordings new, ?_⟩, fun issued ho => ?_⟩
  · rw [recordings_append, hrecords, List.append_assoc, List.cons_append]
  · exact mem_posts_append (hsent issued ho) new

/-- While a call has an open exchange nobody else records one. -/
theorem Change.recordings_of_holds (hchange : Change m env a e b new) (hline : Orderly a)
    (hc : a.calls[i]? = some c) (hholds : c.phase.holds = true) (hi : e.call? ≠ some i) :
    recordings new = [] := by
  rcases hchange.recordings_new with hnone | ⟨j, d, o, hj, hone⟩
  · exact hnone
  · obtain rfl := hline.eq_of_holds hj hc rfl hholds
    have hmem : Notice.recorded j env.now o ∈ new := mem_recordings.mp (by simp [hone])
    exact absurd (hchange.call?_eq_of_mem hmem) hi

theorem Exchanged.append (h : Exchanged i held past phase)
    (hnew : phase.holds = true → recordings new = []) :
    Exchanged i held (past ++ new) phase := by
  cases phase with
  | presenting => exact recordings_append_of_eq_nil (hnew rfl) h
  | exchanging r => exact ⟨recordings_append_of_eq_nil (hnew rfl) h.1, mem_posts_append h.2 new⟩
  | recording o =>
    refine ⟨recordings_append_of_eq_nil (hnew rfl) h.1, fun issued ho => ?_⟩
    exact mem_posts_append (h.2 issued ho) new
  | leaving answer =>
    obtain ⟨o, hanswer, hnext⟩ := h
    exact ⟨o, hanswer, hnext.append new⟩
  | finished answer =>
    obtain ⟨o, hanswer, hnext⟩ := h
    exact ⟨o, hanswer, hnext.append new⟩
  | cancelled => trivial
  | begun | arriving _ | waiting _ | reading => exact h.elim

/-- A login that has an exchange of its own goes on with it. -/
theorem Exchanged.step (h : Exchanged i held past phase) (hline : Orderly a)
    (hc : a.calls[i]? = some ⟨.login, phase⟩) (hchange : Change m env a e b new) :
    ∃ next, b.calls[i]? = some ⟨.login, next⟩ ∧ Exchanged i held (past ++ new) next := by
  by_cases hi : e.call? = some i
  · have goes : ∀ {d : Demand} {before next : Phase}, a.calls[i]? = some ⟨d, before⟩ →
        b.calls = (a.enter i next).calls →
        (d = .login → before = phase → Exchanged i held (past ++ new) next) →
        ∃ next, b.calls[i]? = some ⟨.login, next⟩ ∧ Exchanged i held (past ++ new) next := by
      intro d before next hc' hb hnext
      obtain ⟨rfl, rfl⟩ := Call.mk.inj (Option.some.inj (hc'.symm.trans hc))
      exact ⟨next, by rw [hb, calls_enter_self hc'], hnext rfl rfl⟩
    cases hchange with
    | nothing =>
      rw [List.append_nil]
      exact ⟨phase, hc, h⟩
    | begins => cases hi
    | serves hc' | passes hc' =>
      obtain rfl := Option.some.inj hi
      cases Option.some.inj (hc'.symm.trans hc)
    | looks hc' | joins hc' | enters hc' | reads hc' =>
      obtain rfl := Option.some.inj hi
      obtain ⟨-, rfl⟩ := Call.mk.inj (Option.some.inj (hc'.symm.trans hc))
      exact h.elim
    | sends hc' =>
      obtain rfl := Option.some.inj hi
      refine goes hc' rfl ?_
      rintro rfl rfl
      exact ⟨recordings_append_of_eq_nil rfl h, by simp [posts]⟩
    | lacks hc' =>
      obtain rfl := Option.some.inj hi
      refine goes hc' rfl ?_
      rintro rfl rfl
      refine ⟨recordings_append_of_eq_nil rfl h, fun issued ho => ?_⟩
      cases ho
    | hears reply hc' =>
      obtain rfl := Option.some.inj hi
      refine goes hc' rfl ?_
      rintro rfl rfl
      obtain ⟨hpast, hsent⟩ := h
      exact ⟨recordings_append_of_eq_nil rfl hpast, fun issued _ => mem_posts_append hsent _⟩
    | records hc' =>
      rename_i j d o
      obtain rfl := Option.some.inj hi
      refine goes hc' rfl ?_
      rintro rfl rfl
      obtain ⟨hpast, hsent⟩ := h
      refine ⟨o, rfl, ⟨env.now, [], ?_⟩, fun issued ho => ?_⟩
      · rw [recordings_append, hpast]
        rfl
      · exact mem_posts_append (hsent issued ho) _
    | leaves hc' =>
      obtain rfl := Option.some.inj hi
      refine goes hc' rfl ?_
      rintro rfl rfl
      obtain ⟨o, hanswer, hnext⟩ := h
      exact ⟨o, Option.some.inj hanswer, hnext.append _⟩
    | turns hc' =>
      obtain rfl := Option.some.inj hi
      refine goes hc' rfl ?_
      rintro rfl rfl
      obtain ⟨o, hanswer, -⟩ := h
      cases hanswer
    | yields hc' =>
      obtain rfl := Option.some.inj hi
      exact goes hc' rfl fun _ _ => trivial
  · refine ⟨phase, hchange.calls_eq_of_ne hc hi, h.append fun hholds => ?_⟩
    exact hchange.recordings_of_holds hline hc hholds hi

/-- **Who holds the guard records the next exchange.** -/
theorem exchanged_run (h : Exchanged i held past phase) (hline : Orderly a)
    (hc : a.calls[i]? = some ⟨.login, phase⟩) (m : Method)
    (events : List (Surroundings × Event)) :
    ∃ next, (a.run m events).1.calls[i]? = some ⟨.login, next⟩ ∧
      Exchanged i held (past ++ (a.run m events).2) next := by
  refine (run_induction_after (fun a past => Orderly a ∧
    ∃ next, a.calls[i]? = some ⟨.login, next⟩ ∧ Exchanged i held past next)
    ?_ ⟨hline, phase, hc, h⟩).2
  rintro env e - a b past new hchange ⟨hline, next, hc, h⟩
  exact ⟨hline.step hchange, h.step hline hc hchange⟩

/-- A call that leaves the line with an answer has no other one. -/
def Phase.EndsWith (answer : Answer) (phase : Phase) : Prop :=
  phase = .leaving (some answer) ∨ phase = .finished answer ∨ phase = .cancelled

theorem Change.endsWith {answer : Answer} (hchange : Change m env a e b new)
    (hc : a.calls[i]? = some c) (h : c.phase.EndsWith answer) :
    ∃ c', b.calls[i]? = some c' ∧ c'.phase.EndsWith answer := by
  by_cases hi : e.call? = some i
  · cases hchange with
    | nothing => exact ⟨c, hc, h⟩
    | begins => cases hi
    | leaves hc' =>
      obtain rfl := Option.some.inj hi
      rw [← Option.some.inj (hc'.symm.trans hc)] at h
      obtain rfl : _ = answer := by simpa [Phase.EndsWith] using h
      exact ⟨_, calls_enter_self hc' _, .inr (.inl rfl)⟩
    | yields hc' =>
      obtain rfl := Option.some.inj hi
      exact ⟨_, calls_enter_self hc' _, .inr (.inr rfl)⟩
    | looks hc' | serves hc' | passes hc' | joins hc' | enters hc' | sends hc' | lacks hc'
    | hears _ hc' | records hc' | turns hc' | reads hc' =>
      obtain rfl := Option.some.inj hi
      rw [← Option.some.inj (hc'.symm.trans hc)] at h
      simp [Phase.EndsWith] at h
  · exact ⟨c, hchange.calls_eq_of_ne hc hi, h⟩

theorem endsWith_run {answer : Answer} (hc : a.calls[i]? = some c)
    (h : c.phase.EndsWith answer) (m : Method) (events : List (Surroundings × Event)) :
    ∃ c', (a.run m events).1.calls[i]? = some c' ∧ c'.phase.EndsWith answer := by
  refine run_induction (fun a _ => ∃ c', a.calls[i]? = some c' ∧ c'.phase.EndsWith answer)
    ?_ ⟨c, hc, h⟩
  rintro env e - a b past new hchange ⟨c, hc, h⟩
  exact hchange.endsWith hc h

/-! ### Where tokens come from -/

/-- Where the token of a login comes from, when so much had been recorded as it began, as it got the
guard, and so far, and these calls have sent requests. -/
inductive Fresh (i : Nat) (looked held recorded : List (Nat × Timestamp × Except Failure Issued))
    (posts : List Nat) (token : String) : Prop where
  /-- From its own exchange, the next to be recorded once it had the guard. -/
  | own {time : Timestamp} {issued : Issued}
    {newer : List (Nat × Timestamp × Except Failure Issued)}
    (hnext : recorded = held ++ (i, time, .ok issued) :: newer) (hsent : i ∈ posts)
    (htoken : token = issued.token)
  /-- From the exchange of another call, recorded after the login began and as the last one before
  it got the guard. -/
  | joined {between : List (Nat × Timestamp × Except Failure Issued)} {w : Nat} {time : Timestamp}
    {issued : Issued} (hlast : held = looked ++ between ++ [(w, time, .ok issued)]) (hw : w ≠ i)
    (hunsent : i ∉ posts) (htoken : token = issued.token)

/-- What a login has seen when it gets the guard is how much had been recorded when it began. -/
theorem IsTurn.seen_eq {first second : List (Surroundings × Event)}
    (h : IsTurn m i first env second) :
    (initial.run m (first ++ (env, .advance i) :: second)).1.calls[i]?
      = some ⟨.login, .waiting (recordings (initial.run m first).2).length⟩ := by
  obtain ⟨seen, hwaiting⟩ := h.waiting
  have hlook : ((initial.run m first).1.step m env (.advance i)).1.calls[i]?
      = some ⟨.login, .arriving (recordings (initial.run m first).2).length⟩ := by
    have hbegun := h.begun
    rw [step, advance, hbegun, ← (tallied_run m first).recorded]
    exact calls_enter_self hbegun _
  obtain ⟨c, hc, hremembers⟩ := remembers_run hlook (.inl rfl) m second
  rw [run_append, run_cons] at hwaiting ⊢
  obtain rfl := Option.some.inj (hc.symm.trans hwaiting)
  obtain rfl : seen = (recordings (initial.run m first).2).length := by
    simpa [Phase.Remembers, Phase.stepsLeft] using hremembers
  exact hwaiting

/-- What had been recorded when a login began had been recorded when it got the guard. -/
theorem recordings_prefix (m : Method) (first second : List (Surroundings × Event)) :
    recordings (initial.run m first).2 <+: recordings (initial.run m (first ++ second)).2 := by
  rw [run_append, recordings_append]
  exact List.prefix_append ..

/-- **What a look back finds**, in terms of what was recorded: a success, as the last record
since. -/
theorem succeededSince_run_eq_some_iff (m : Method) (first second : List (Surroundings × Event))
    {issued : Issued} :
    (initial.run m (first ++ second)).1.succeededSince
        (recordings (initial.run m first).2).length = some issued ↔
      ∃ between w time found, recordings (initial.run m (first ++ second)).2
          = recordings (initial.run m first).2 ++ between ++ [(w, time, .ok found)] ∧
        issued = (Lease.grant found time).issued := by
  have hprefix := recordings_prefix m first second
  rw [(tallied_run m (first ++ second)).succeededSince_eq_some_iff hprefix.length_le]
  constructor
  · rintro ⟨older, w, time, found, hlast, hle, hissued⟩
    obtain ⟨between, rfl⟩ := List.prefix_of_prefix_length_le hprefix ⟨_, hlast.symm⟩ hle
    exact ⟨between, w, time, found, hlast, hissued⟩
  · rintro ⟨between, w, time, found, hlast, hissued⟩
    exact ⟨_, w, time, found, hlast, by simp, hissued⟩

/-- What was recorded before a login gets the guard was recorded by other calls. -/
theorem IsTurn.ne_of_recorded {first second : List (Surroundings × Event)}
    (h : IsTurn m i first env second) {w : Nat} {time : Timestamp} {o : Except Failure Issued}
    (hrecorded : (w, time, o)
      ∈ recordings (initial.run m (first ++ (env, .advance i) :: second)).2) : w ≠ i := by
  rintro rfl
  obtain ⟨c, hc, hunrecorded⟩ := recorded_run m _ _ hrecorded
  rw [← Option.some.inj (h.seen_eq.symm.trans hc)] at hunrecorded
  cases hunrecorded

/-- With the guard a login goes on as its second look says. -/
theorem IsTurn.step_eq {first second : List (Surroundings × Event)}
    (h : IsTurn m i first env second) (hm : m.joins = true) (env' : Surroundings) :
    let a := (initial.run m (first ++ (env, .advance i) :: second)).1
    (a.step m env' (.advance i)).2 = [.granted i] ∧
      (a.step m env' (.advance i)).1.calls[i]? = some ⟨.login,
        match a.succeededSince (recordings (initial.run m first).2).length with
        | some issued => .leaving (some (.issued (.ok issued)))
        | none => .presenting⟩ := by
  intro a
  have hwaiting : a.calls[i]?
      = some ⟨.login, .waiting (recordings (initial.run m first).2).length⟩ := h.seen_eq
  have hhead : a.line.head? = some i := h.head
  rw [step, advance, hwaiting]
  simp only
  rw [if_pos hhead]
  refine ⟨rfl, (calls_enter_self hwaiting _).trans ?_⟩
  cases hfound : a.succeededSince (recordings (initial.run m first).2).length <;>
    simp [admitted, hm, hfound]

/-- A run on in which a login gets the guard. -/
theorem IsTurn.run_eq {first second : List (Surroundings × Event)} (h : IsTurn m i first env second)
    (hm : m.joins = true) (env' : Surroundings) (rest : List (Surroundings × Event)) :
    let before := initial.run m (first ++ (env, .advance i) :: second)
    let after := (before.1.step m env' (.advance i)).1.run m rest
    initial.run m (first ++ (env, .advance i) :: second ++ (env', .advance i) :: rest)
      = (after.1, before.2 ++ .granted i :: after.2) := by
  intro before after
  have hnew : (before.1.step m env' (.advance i)).2 = [.granted i] := (h.step_eq hm env').1
  rw [run_append, run_cons, hnew]
  rfl

/-- **A login that finds a success of somebody else takes it over**: it sends nothing and has no
other answer. -/
theorem IsTurn.joined {first second : List (Surroundings × Event)}
    (h : IsTurn m i first env second) (hm : m.joins = true) {issued : Issued}
    (hfound : (initial.run m (first ++ (env, .advance i) :: second)).1.succeededSince
      (recordings (initial.run m first).2).length = some issued)
    (env' : Surroundings) (rest : List (Surroundings × Event)) :
    let r := initial.run m (first ++ (env, .advance i) :: second ++ (env', .advance i) :: rest)
    i ∉ posts r.2 ∧ ∀ answer, r.1.calls[i]? = some ⟨.login, .finished answer⟩ →
      answer = .issued (.ok issued) := by
  intro r
  have hc := (h.step_eq hm env').2
  rw [hfound] at hc
  have hunsent : i ∉ posts ((initial.run m (first ++ (env, .advance i) :: second)).2
      ++ [.granted i]) := by
    rw [posts_append, show posts [Notice.granted i] = [] from rfl, List.append_nil]
    exact not_mem_posts_of_canSend _ h.seen_eq rfl
  have hspent := spent_run hc rfl hunsent m rest
  rw [← List.append_cons] at hspent
  have hr : r = _ := h.run_eq hm env' rest
  rw [hr]
  refine ⟨hspent, ?_⟩
  intro answer hanswer
  obtain ⟨c, hc', hends⟩ := endsWith_run hc (.inl rfl) m rest
  obtain rfl := Option.some.inj (hc'.symm.trans hanswer)
  simpa [Phase.EndsWith] using hends

/-- **A login that finds none has an exchange of its own**, which is the next to be recorded. -/
theorem IsTurn.own {first second : List (Surroundings × Event)}
    (h : IsTurn m i first env second) (hm : m.joins = true)
    (hnone : (initial.run m (first ++ (env, .advance i) :: second)).1.succeededSince
      (recordings (initial.run m first).2).length = none)
    (env' : Surroundings) (rest : List (Surroundings × Event)) :
    let held := recordings (initial.run m (first ++ (env, .advance i) :: second)).2
    let r := initial.run m (first ++ (env, .advance i) :: second ++ (env', .advance i) :: rest)
    ∀ answer, r.1.calls[i]? = some ⟨.login, .finished answer⟩ →
      ∃ result, answer = .issued result ∧ RecordsNext i held r.2 result := by
  intro held r answer hanswer
  have hc := (h.step_eq hm env').2
  rw [hnone] at hc
  have hline := (orderly_run orderly_initial m (first ++ (env, .advance i) :: second)).step
    (change_step m env' _ (.advance i))
  have hr : r = _ := h.run_eq hm env' rest
  rw [hr] at hanswer ⊢
  have hheld : Exchanged i held ((initial.run m (first ++ (env, .advance i) :: second)).2
      ++ [.granted i]) .presenting := recordings_append_of_eq_nil rfl rfl
  obtain ⟨next, hc', hnext⟩ := exchanged_run hheld hline hc m rest
  obtain ⟨-, rfl⟩ := Call.mk.inj (Option.some.inj (hc'.symm.trans hanswer))
  obtain ⟨o, ho, hrecords⟩ := hnext
  rw [← List.append_cons] at hrecords
  exact ⟨o, ho, hrecords⟩

/-- **Where the tokens of logins come from.** A login that is over has looked twice. If its answer
is a token, that was issued in its own exchange, the next to be recorded once it had the guard, or
in the last one recorded before, by another call and after the login began. Whenever the last record
before it got the guard is such a success, it sends nothing and has no other answer than that
token. -/
theorem fresh_logins (server : Url) (role : String) (account : ServiceAccount) (threshold : Span)
    (events : List (Surroundings × Event)) :
    let m := Method.kubernetes server role account threshold
    let a := (initial.run m events).1
    let notices := (initial.run m events).2
    (∀ i answer, a.calls[i]? = some ⟨.login, .finished answer⟩ →
      ∃ first env second env' rest,
        events = first ++ (env, .advance i) :: second ++ (env', .advance i) :: rest ∧
          IsTurn m i first env second) ∧
    ∀ i first env second env' rest,
      events = first ++ (env, .advance i) :: second ++ (env', .advance i) :: rest →
      IsTurn m i first env second →
      let looked := recordings (initial.run m first).2
      let held := recordings (initial.run m (first ++ (env, .advance i) :: second)).2
      (∀ answer, a.calls[i]? = some ⟨.login, .finished answer⟩ →
        ∃ result, answer = .issued result ∧ ∀ issued, result = .ok issued →
          Fresh i looked held (recordings notices) (posts notices) issued.token) ∧
        ∀ between w time issued, held = looked ++ between ++ [(w, time, .ok issued)] →
          i ∉ posts notices ∧ ∀ answer, a.calls[i]? = some ⟨.login, .finished answer⟩ →
            ∃ result, answer = .issued (.ok result) ∧ result.token = issued.token := by
  intro m a notices
  refine ⟨fun i answer => exists_turn_of_finished m, ?_⟩
  rintro i first env second env' rest rfl hturn looked held
  have hm : m.joins = true := rfl
  constructor
  · intro answer hanswer
    cases hlook : (initial.run m (first ++ (env, .advance i) :: second)).1.succeededSince
        looked.length with
    | some issued =>
      obtain ⟨hunsent, hend⟩ := hturn.joined hm hlook env' rest
      obtain ⟨between, w, time, found, hlast, rfl⟩ :=
        (succeededSince_run_eq_some_iff m first _).mp hlook
      have hrecorded : (w, time, .ok found) ∈ held := by
        rw [show held = _ from hlast]
        simp
      have hw : w ≠ i := hturn.ne_of_recorded hrecorded
      refine ⟨_, hend answer hanswer, ?_⟩
      rintro _ ⟨⟩
      exact .joined hlast hw hunsent rfl
    | none =>
      obtain ⟨result, hresult, ⟨time, newer, hrecords⟩, hsent⟩ :=
        hturn.own hm hlook env' rest answer hanswer
      refine ⟨result, hresult, ?_⟩
      rintro issued rfl
      exact .own hrecords (hsent issued rfl) rfl
  · intro between w time issued hlast
    have hlook := (succeededSince_run_eq_some_iff m first _).mpr
      ⟨between, w, time, issued, hlast, rfl⟩
    obtain ⟨hunsent, hend⟩ := hturn.joined hm hlook env' rest
    exact ⟨hunsent, fun answer hanswer => ⟨_, hend answer hanswer, rfl⟩⟩

end Authenticator

end VaultTokens
