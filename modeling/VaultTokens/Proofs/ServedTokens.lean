import Mathlib.Data.List.Basic
import Mathlib.Data.List.Induction
import VaultTokens.Proofs.CallCourse

/-!
# The token that is served

A call for the token looks for the last time in the step in which it is answered, after it has left
the line. What others have recorded by then decides the answer, whatever came of the call's own
exchange. A history is read off the notices: `beforeAnswer` is what had been let known when a call
was answered, `successes` and `failures` are what had been recorded by then, and `Told` says what a
call is told. An exchange counts from when it is recorded.

Successes are numbered in the order in which they were recorded. A call is served the last of those
that had been recorded by then, so a later call is never served one with a smaller number.

## Main results

* `told_served` — the standing serves the last success, or tells of the last failure
* `accounted_run` — every call for the token is told so, and its own exchange is never ahead of it
* `beforeAnswer_grows` — a call that begins after another one was answered knows all it knew
* `behind_of_held`, `finished_of_held` — a call that finds its token not due does not go to the line,
  and is served by its next step
* `served_tokens` — all of this for any run
-/

namespace VaultTokens

namespace Authenticator

variable {m : Method} {env : Surroundings} {a b : Authenticator} {e : Event}
  {past new : List Notice} {i j : Nat} {c : Call} {s : Standing}

/-! ### What a history comes to -/

/-- The exchanges that succeeded, each with its call, in the order in which they were recorded. -/
def successes (past : List Notice) : List (Nat × Issued) :=
  (recordings past).filterMap fun r => r.2.2.toOption.map fun issued => (r.1, issued)

/-- What the other exchanges failed with, in the order in which they were recorded. -/
def failures (past : List Notice) : List Failure :=
  (recordings past).filterMap fun r =>
    match r.2.2 with
    | .ok _ => none
    | .error f => some f

theorem successes_append (past new : List Notice) :
    successes (past ++ new) = successes past ++ successes new := by
  rw [successes, recordings_append, List.filterMap_append]
  rfl

/-- What a call for the token is told when so much has been let known. -/
inductive Told (past : List Notice) : Except Failure String → Prop where
  /-- The token of the last exchange that succeeded. -/
  | token {older : List (Nat × Issued)} {w : Nat} {issued : Issued}
    (h : successes past = older ++ [(w, issued)]) : Told past (.ok issued.token)
  /-- What the last exchange failed with, if none has succeeded. -/
  | failure {older : List Failure} {f : Failure} (hnone : successes past = [])
    (h : failures past = older ++ [f]) :
    Told past (.error (.authentication
      ("No Vault token has been obtained with Kubernetes auth: " ++ f.message)))

theorem lastSuccess_history (past : List Notice) :
    (Standing.lastSuccess (history past)).map Prod.snd = (successes past).getLast?.map Prod.snd := by
  rw [history, successes]
  induction recordings past using List.reverseRecOn with
  | nil => rfl
  | append_singleton records r ih =>
    obtain ⟨w, time, outcome⟩ := r
    rw [List.map_append, List.reverse_append, List.filterMap_append]
    cases outcome with
    | ok issued => simp [Standing.lastSuccess, Except.toOption]
    | error f => simpa [Standing.lastSuccess, Except.toOption] using ih

theorem failuresSince_history (hnone : successes past = []) :
    (Standing.failuresSince (history past)).head? = (failures past).getLast? := by
  rw [successes] at hnone
  rw [history, failures]
  generalize recordings past = records at hnone
  induction records using List.reverseRecOn with
  | nil => rfl
  | append_singleton records r ih =>
    obtain ⟨w, time, outcome⟩ := r
    rw [List.map_append, List.reverse_append, List.filterMap_append]
    cases outcome with
    | ok issued => simp [Except.toOption] at hnone
    | error f => simp [Standing.failuresSince]

/-- **The standing serves the last success, or tells of the last failure.** -/
theorem told_served (h : s.Reflects (history past)) (hpast : recordings past ≠ []) :
    Told past (served s) := by
  have htoken : s.token = (successes past).getLast?.map fun w => w.2.token := by
    rw [Standing.token, h.lease, Option.map_map]
    have hlast := congrArg (Option.map Issued.token) (lastSuccess_history past)
    rwa [Option.map_map, Option.map_map] at hlast
  obtain hnone | ⟨older, ⟨w, issued⟩, hsome⟩ := (successes past).eq_nil_or_concat'
  · obtain ⟨records, ⟨w, time, outcome⟩, hrecords⟩ :=
      (recordings past).eq_nil_or_concat'.resolve_left hpast
    cases outcome with
    | ok issued => simp [successes, hrecords, Except.toOption] at hnone
    | error f =>
      obtain ⟨older, hfailures⟩ : ∃ older, failures past = older ++ [f] :=
        ⟨_, by rw [failures, hrecords, List.filterMap_append]; rfl⟩
      have herror : s.lastError = some f.message := by
        rw [h.lastError, failuresSince_history hnone, hfailures, List.getLast?_concat]
        rfl
      have hserved : served s = .error (.authentication
          ("No Vault token has been obtained with Kubernetes auth: " ++ f.message)) := by
        rw [served, htoken, hnone, herror]
        rfl
      rw [hserved]
      exact .failure hnone hfailures
  · have hserved : served s = .ok issued.token := by
      rw [served, htoken, hsome, List.getLast?_concat]
      rfl
    rw [hserved]
    exact .token hsome

/-! ### Before an answer -/

/-- Whether a notice is the answer to a call. -/
def Notice.isAnswerTo (i : Nat) : Notice → Bool
  | .answered j _ => j = i
  | _ => false

/-- What had been let known when a call was answered, or all of it if the call was not. -/
def beforeAnswer (i : Nat) (past : List Notice) : List Notice :=
  past.takeWhile fun n => !n.isAnswerTo i

/-- Whether a call was answered. -/
def wasAnswered (i : Nat) (past : List Notice) : Bool := past.any (Notice.isAnswerTo i)

theorem wasAnswered_append (i : Nat) (past new : List Notice) :
    wasAnswered i (past ++ new) = (wasAnswered i past || wasAnswered i new) :=
  List.any_append

theorem beforeAnswer_append (i : Nat) (past new : List Notice) :
    beforeAnswer i (past ++ new)
      = if wasAnswered i past then beforeAnswer i past else past ++ beforeAnswer i new := by
  induction past with
  | nil => rfl
  | cons n rest ih =>
    rw [wasAnswered, List.any_cons]
    cases hn : n.isAnswerTo i with
    | true => simp [beforeAnswer, hn]
    | false =>
      have hgo : ∀ more, beforeAnswer i (n :: more) = n :: beforeAnswer i more := by
        intro more
        simp [beforeAnswer, hn]
      rw [List.cons_append, hgo, hgo, ih, Bool.false_or, wasAnswered]
      split <;> rfl

theorem beforeAnswer_append_of_answered (h : wasAnswered i past = true) (new : List Notice) :
    beforeAnswer i (past ++ new) = beforeAnswer i past := by
  rw [beforeAnswer_append, if_pos h]

/-! ### Every answer is accounted for -/

/-- What is known about a call in the phases behind its exchange. -/
def Accounts (past : List Notice) (i : Nat) (c : Call) : Prop :=
  match c.phase with
  | .leaving (some _) => c.demand = .login
  | .leaving none | .reading => recordings past ≠ []
  | .finished answer => wasAnswered i past = true ∧
      (c.demand = .token →
        ∃ result, answer = .token result ∧ Told (beforeAnswer i past) result) ∧
      ∀ issued, (i, issued) ∈ successes past → (i, issued) ∈ successes (beforeAnswer i past)
  | _ => True

/-- Every answer is accounted for by what had been recorded before it. -/
structure Accounted (a : Authenticator) (past : List Notice) : Prop where
  /-- The standing is the history. -/
  reflects : a.standing.Reflects (history past)
  /-- Who was answered is over. -/
  answered : ∀ i, wasAnswered i past = true → ∃ d answer, a.calls[i]? = some ⟨d, .finished answer⟩
  /-- Every call is accounted for. -/
  accounts : ∀ i c, a.calls[i]? = some c → Accounts past i c

theorem accounted_initial : Accounted initial [] := by
  refine ⟨Standing.reflects_initial, ?_, ?_⟩ <;> simp [initial, wasAnswered]

/-- A call that finds its token not due finds a history. -/
theorem recordings_ne_nil_of_held (h : s.Reflects (history past)) (hlease : s.lease.isSome = true) :
    recordings past ≠ [] := by
  intro hnil
  rw [h.lease, history, hnil] at hlease
  cases hlease

theorem isSome_lease_of_held {t : Timestamp} {threshold : Span}
    (h : s.needsLogin t threshold = false) : s.lease.isSome = true := by
  rw [Standing.needsLogin] at h
  cases hs : s.lease with
  | none => simp [hs] at h
  | some l => rfl

theorem mem_successes {issued : Issued} :
    (i, issued) ∈ successes past ↔ ∃ time, Notice.recorded i time (.ok issued) ∈ past := by
  rw [successes, recordings, List.filterMap_filterMap, List.mem_filterMap]
  constructor
  · rintro ⟨n, hn, hi⟩
    cases n with
    | recorded j time outcome =>
      cases outcome with
      | ok other =>
        obtain ⟨rfl, rfl⟩ := Prod.mk.inj (Option.some.inj hi)
        exact ⟨time, hn⟩
      | error f => cases hi
    | _ => cases hi
  · rintro ⟨time, hn⟩
    exact ⟨_, hn, rfl⟩

/-- What is known about a call stays so while nothing is heard of it. -/
theorem Accounts.append (h : Accounts past i c) (hnew : ∀ n ∈ new, n.call ≠ i) :
    Accounts (past ++ new) i c := by
  obtain ⟨d, phase⟩ := c
  have hrecordings : recordings past ≠ [] → recordings (past ++ new) ≠ [] := by
    intro hpast hnil
    rw [recordings_append] at hnil
    exact hpast (List.append_eq_nil_iff.mp hnil).1
  cases phase with
  | leaving answer =>
    cases answer with
    | none => exact hrecordings h
    | some answer => exact h
  | reading => exact hrecordings h
  | finished answer =>
    obtain ⟨hanswered, htold, hown⟩ := h
    simp only [Accounts, beforeAnswer_append_of_answered hanswered]
    refine ⟨?_, htold, fun issued hissued => ?_⟩
    · rw [wasAnswered_append, hanswered, Bool.true_or]
    · rw [successes_append] at hissued
      rcases List.mem_append.mp hissued with hissued | hissued
      · exact hown issued hissued
      · obtain ⟨time, hn⟩ := mem_successes.mp hissued
        exact absurd rfl (hnew _ hn)
  | begun | arriving _ | waiting _ | presenting | exchanging _ | recording _ | cancelled => trivial

/-- Who is answered is over with that answer. -/
theorem Change.over_of_answered (hchange : Change m env a e b new)
    (hi : wasAnswered i new = true) : ∃ d answer, b.calls[i]? = some ⟨d, .finished answer⟩ := by
  obtain ⟨n, hn, hni⟩ := List.any_eq_true.mp hi
  have ends : ∀ {j : Nat} {d : Demand} {phase : Phase} {answer : Answer},
      a.calls[j]? = some ⟨d, phase⟩ → new = [.answered j answer] →
      b.calls = (a.enter j (.finished answer)).calls →
      ∃ d answer, b.calls[i]? = some ⟨d, .finished answer⟩ := by
    intro j d phase answer hc hnew hb
    rw [hnew, List.mem_singleton] at hn
    rw [hn, Notice.isAnswerTo, decide_eq_true_eq] at hni
    subst hni
    exact ⟨d, answer, by rw [hb, calls_enter_self hc]⟩
  cases hchange with
  | serves hc | leaves hc | reads hc => exact ends hc rfl rfl
  | nothing | begins | looks | passes | joins | turns | yields => cases hn
  | enters | sends | lacks | hears | records =>
    rw [List.mem_singleton.mp hn] at hni
    cases hni

theorem Accounted.wasAnswered_eq_false (h : Accounted a past) (hc : a.calls[i]? = some c)
    (hopen : c.phase.isOver = false) : wasAnswered i past = false := by
  rw [Bool.eq_false_iff]
  intro hanswered
  obtain ⟨d, answer, hc'⟩ := h.answered i hanswered
  rw [← Option.some.inj (hc'.symm.trans hc)] at hopen
  cases hopen

/-- A call that is answered now is accounted for by what has been recorded so far. -/
theorem accounts_finished (hopen : wasAnswered i past = false) {d : Demand} {answer : Answer}
    (htold : d = .token → ∃ result, answer = .token result ∧ Told past result) :
    Accounts (past ++ [.answered i answer]) i ⟨d, .finished answer⟩ := by
  have hbefore : beforeAnswer i (past ++ [.answered i answer]) = past := by
    rw [beforeAnswer_append, hopen, if_neg Bool.false_ne_true]
    simp [beforeAnswer, Notice.isAnswerTo]
  simp only [Accounts, hbefore]
  refine ⟨?_, htold, fun issued hissued => ?_⟩
  · simp [wasAnswered, Notice.isAnswerTo]
  · rw [successes_append] at hissued
    simpa [successes, recordings] using hissued

/-- A call that gets the guard and exchanges nothing has a history to go by. -/
theorem Accounted.admitted (h : Accounted a past) (d : Demand) (seen : Nat) :
    Accounts (past ++ new) i ⟨d, a.admitted m env d seen⟩ := by
  cases d with
  | login =>
    simp only [Authenticator.admitted]
    split
    · rfl
    · trivial
  | token =>
    simp only [Authenticator.admitted]
    split
    · trivial
    · rename_i hneeds
      have hheld := isSome_lease_of_held (Bool.eq_false_iff.mpr hneeds)
      simp only [Accounts, recordings_append]
      exact List.append_ne_nil_of_left_ne_nil (recordings_ne_nil_of_held h.reflects hheld) _

/-- What is known about a call stays known when it goes on. -/
theorem Accounted.own (hm : m.ownToken = none) (h : Accounted a past)
    (hchange : Change m env a e b new) (hc : b.calls[i]? = some c) (hi : e.call? = some i) :
    Accounts (past ++ new) i c := by
  have enters : ∀ {d : Demand} {before after : Phase}, a.calls[i]? = some ⟨d, before⟩ →
      b.calls = (a.enter i after).calls → c = ⟨d, after⟩ := by
    intro d before after ha hb
    rw [hb, calls_enter_self ha] at hc
    exact (Option.some.inj hc).symm
  cases hchange with
  | nothing =>
    rw [List.append_nil]
    exact h.accounts i c hc
  | begins d => cases hi
  | serves _ hm' => rw [hm] at hm'; cases hm'
  | looks ha | joins ha | sends ha | lacks ha | hears _ ha | yields ha =>
    obtain rfl := Option.some.inj hi
    rw [enters ha rfl]
    trivial
  | passes ha hs =>
    obtain rfl := Option.some.inj hi
    rw [enters ha rfl, List.append_nil]
    exact recordings_ne_nil_of_held h.reflects (isSome_lease_of_held hs)
  | enters ha =>
    rename_i j seen d hhead
    obtain rfl := Option.some.inj hi
    rw [enters ha rfl]
    exact h.admitted d seen
  | records ha =>
    rename_i j d o
    obtain rfl := Option.some.inj hi
    rw [enters ha rfl]
    cases d with
    | login => rfl
    | token =>
      simp only [Accounts, afterRecording, recordings_append]
      exact List.append_ne_nil_of_right_ne_nil _ (List.cons_ne_nil _ _)
  | leaves ha =>
    rename_i j d answer
    obtain rfl := Option.some.inj hi
    rw [enters ha rfl]
    have hlogin : d = .login := h.accounts j _ ha
    refine accounts_finished (h.wasAnswered_eq_false ha rfl) fun htoken => ?_
    rw [hlogin] at htoken
    cases htoken
  | turns ha =>
    obtain rfl := Option.some.inj hi
    rw [enters ha rfl, List.append_nil]
    have hpast := h.accounts _ _ ha
    exact hpast
  | reads ha =>
    obtain rfl := Option.some.inj hi
    rw [enters ha rfl]
    refine accounts_finished (h.wasAnswered_eq_false ha rfl) fun _ => ⟨_, rfl, ?_⟩
    exact told_served h.reflects (h.accounts _ _ ha)

/-- **Every change keeps the answers accounted for**, if no token is served without an exchange. -/
theorem Accounted.step (hm : m.ownToken = none) (h : Accounted a past)
    (hchange : Change m env a e b new) : Accounted b (past ++ new) := by
  refine ⟨hchange.reflects h.reflects, fun i hi => ?_, fun i c hc => ?_⟩
  · rw [wasAnswered_append, Bool.or_eq_true] at hi
    rcases hi with hi | hi
    · obtain ⟨d, answer, hc⟩ := h.answered i hi
      exact ⟨d, answer, (hchange.finished hc).1⟩
    · exact hchange.over_of_answered hi
  · by_cases hi : e.call? = some i
    · exact h.own hm hchange hc hi
    · obtain hc' | hbegun := (hchange.calls_cases hc).resolve_left hi
      · refine (h.accounts i c hc').append fun n hn hni => hi ?_
        rw [hchange.call?_eq_of_mem hn, hni]
      · rw [Accounts, hbegun]
        trivial

/-- **Every call for the token is told what had been recorded when it looked last.** -/
theorem accounted_run (hm : m.ownToken = none) (events : List (Surroundings × Event)) :
    Accounted (initial.run m events).1 (initial.run m events).2 :=
  run_induction Accounted (fun _ _ _ _ _ hchange h => h.step hm hchange) accounted_initial

/-! ### One call after another -/

/-- **A call that begins after another one was answered knows all that one knew.** -/
theorem beforeAnswer_grows (hm : m.ownToken = none) (first rest : List (Surroundings × Event))
    {d : Demand} {answer : Answer}
    (hi : (initial.run m first).1.calls[i]? = some ⟨d, .finished answer⟩)
    (hj : (initial.run m first).1.calls.size ≤ j) :
    beforeAnswer i (initial.run m (first ++ rest)).2
      <+: beforeAnswer j (initial.run m (first ++ rest)).2 := by
  have h := accounted_run hm first
  have hanswered : wasAnswered i (initial.run m first).2 = true := (h.accounts i _ hi).1
  have hnone : wasAnswered j (initial.run m first).2 = false := by
    rw [Bool.eq_false_iff]
    intro hmem
    obtain ⟨d, answer, hc⟩ := h.answered j hmem
    exact absurd (Array.getElem?_eq_some_iff.mp hc).1 (Nat.not_lt.mpr hj)
  rw [run_append, beforeAnswer_append_of_answered hanswered, beforeAnswer_append, hnone,
    if_neg Bool.false_ne_true]
  exact (List.takeWhile_prefix _).trans (List.prefix_append _ _)

/-! ### A call that finds its token not due -/

theorem Change.lease_isSome (hchange : Change m env a e b new)
    (h : a.standing.lease.isSome = true) : b.standing.lease.isSome = true := by
  cases hchange with
  | records hc =>
    rename_i i d o
    cases o with
    | ok issued => rfl
    | error f => exact h
  | nothing | begins | looks | serves | passes | joins | enters | sends | lacks | hears | leaves
  | turns | reads | yields => exact h

/-- A call for the token that looks while the token is not due goes on to read it. -/
theorem Change.of_held (hm : m.ownToken = none) (hc : a.calls[i]? = some ⟨.token, .begun⟩)
    (hs : a.standing.needsLogin env.now m.threshold = false)
    (hchange : Change m env a (.advance i) b new) : b = a.enter i .reading ∧ new = [] := by
  cases hchange with
  | nothing he => simp [isMovedBy, isReady, hc] at he
  | passes => exact ⟨rfl, rfl⟩
  | looks hc' hd =>
    obtain ⟨rfl, -⟩ := Call.mk.inj (Option.some.inj (hc'.symm.trans hc))
    cases (hd rfl).2.symm.trans hs
  | serves _ hm' => cases hm.symm.trans hm'
  | joins hc' | enters hc' | sends hc' | lacks hc' | records hc' | leaves hc' | turns hc'
  | reads hc' => cases Option.some.inj (hc'.symm.trans hc)

/-- A call for the token that gets the guard while the token is not due exchanges nothing. -/
theorem Change.of_held_first {seen : Nat} (hc : a.calls[i]? = some ⟨.token, .waiting seen⟩)
    (hi : a.line.head? = some i) (hs : a.standing.needsLogin env.now m.threshold = false)
    (hchange : Change m env a (.advance i) b new) :
    b = a.enter i (.leaving none) ∧ new = [.granted i] := by
  cases hchange with
  | nothing he => simp [isMovedBy, isReady, hc, hi] at he
  | enters hc' =>
    obtain ⟨rfl, -⟩ := Call.mk.inj (Option.some.inj (hc'.symm.trans hc))
    simp [admitted, hs]
  | looks hc' | serves hc' | passes hc' | joins hc' | sends hc' | lacks hc' | records hc'
  | leaves hc' | turns hc' | reads hc' => cases Option.some.inj (hc'.symm.trans hc)

/-- A call that will read the token reads what is served now. -/
theorem Change.of_reading {d : Demand} (hc : a.calls[i]? = some ⟨d, .reading⟩)
    (hchange : Change m env a (.advance i) b new) :
    b.calls[i]? = some ⟨d, .finished (.token (served a.standing))⟩ := by
  cases hchange with
  | nothing he => simp [isMovedBy, isReady, hc] at he
  | reads => exact calls_enter_self hc _
  | looks hc' | serves hc' | passes hc' | joins hc' | enters hc' | sends hc' | lacks hc'
  | records hc' | leaves hc' | turns hc' => cases Option.some.inj (hc'.symm.trans hc)

theorem served_of_held (h : s.lease.isSome = true) : ∃ token, served s = .ok token := by
  obtain ⟨l, hl⟩ := Option.isSome_iff_exists.mp h
  exact ⟨l.token, by simp [served, Standing.token, hl]⟩

/-- There is a token, and a call either will read it next or has read one. -/
structure Serves (a : Authenticator) (i : Nat) : Prop where
  /-- There is a token. -/
  held : a.standing.lease.isSome = true
  /-- The call will read it next or has read one. -/
  call : a.calls[i]? = some ⟨.token, .reading⟩ ∨
    ∃ token, a.calls[i]? = some ⟨.token, .finished (.token (.ok token))⟩

theorem Serves.finished (h : Serves a i) (hchange : Change m env a (.advance i) b new) :
    ∃ token, b.calls[i]? = some ⟨.token, .finished (.token (.ok token))⟩ := by
  rcases h.call with hc | ⟨token, hc⟩
  · obtain ⟨token, htoken⟩ := served_of_held h.held
    rw [hchange.of_reading hc, htoken]
    exact ⟨token, rfl⟩
  · exact ⟨token, (hchange.finished hc).1⟩

theorem Serves.step (h : Serves a i) (hchange : Change m env a e b new) (he : e ≠ .cancel i) :
    Serves b i := by
  refine ⟨hchange.lease_isSome h.held, ?_⟩
  by_cases hi : e.call? = some i
  · cases e with
    | begin d => cases hi
    | advance k =>
      obtain rfl := Option.some.inj hi
      exact .inr (h.finished hchange)
    | reply k reply =>
      obtain rfl := Option.some.inj hi
      cases hchange with
      | nothing => exact h.call
      | hears _ hc' =>
        rcases h.call with hc | ⟨token, hc⟩ <;> cases Option.some.inj (hc'.symm.trans hc)
    | cancel k =>
      obtain rfl := Option.some.inj hi
      exact absurd rfl he
  · exact h.call.imp (fun hc => hchange.calls_eq_of_ne hc hi)
      fun ⟨token, hc⟩ => ⟨token, hchange.calls_eq_of_ne hc hi⟩

/-- **A call that finds a token is served by its next step**, unless it is given up. -/
theorem Serves.run (h : Serves a i) (m : Method) {rest : List (Surroundings × Event)}
    (hkept : ∀ x ∈ rest, x.2 ≠ .cancel i) (hmoved : ∃ x ∈ rest, x.2 = .advance i) :
    ∃ token, (a.run m rest).1.calls[i]? = some ⟨.token, .finished (.token (.ok token))⟩ := by
  obtain ⟨⟨env, e⟩, hmem, rfl⟩ := hmoved
  obtain ⟨before, after, rfl⟩ := List.append_of_mem hmem
  have hbefore : Serves (a.run m before).1 i :=
    run_induction (fun a _ => Serves a i)
      (fun hx _ _ _ _ hchange h => h.step hchange (hkept _ (List.mem_append_left _ hx))) h
  obtain ⟨token, hc⟩ := hbefore.finished (change_step m env _ _)
  refine ⟨token, ?_⟩
  rw [run_append, run_cons]
  exact run_induction
    (fun a _ => a.calls[i]? = some ⟨.token, .finished (.token (.ok token))⟩)
    (fun _ _ _ _ _ hchange hc => (hchange.finished hc).1) hc

/-- A call that has not got the guard yet has not sent anything either. -/
theorem not_mem_posts_of_canSend (before : List (Surroundings × Event))
    (hc : (initial.run m before).1.calls[i]? = some c) (hfree : c.phase.canSend = true) :
    i ∉ posts (initial.run m before).2 := by
  intro hmem
  obtain ⟨c', hc', hspent⟩ := (posted_run m before).spent i hmem
  rw [← Option.some.inj (hc.symm.trans hc'), hfree] at hspent
  cases hspent

theorem not_mem_grants_of_begun (before : List (Surroundings × Event)) {d : Demand}
    (hc : (initial.run m before).1.calls[i]? = some ⟨d, .begun⟩) :
    i ∉ grants (initial.run m before).2 := by
  intro hmem
  obtain ⟨c, hc', hpast⟩ := (inTurn_run m before).past i hmem
  rw [← Option.some.inj (hc.symm.trans hc')] at hpast
  cases hpast

/-- **A call that finds its token not due does not go to the line.** It sends nothing, and at any
moment it is over or free to take its next step. -/
theorem behind_of_held (hm : m.ownToken = none) (before rest : List (Surroundings × Event))
    (hc : (initial.run m before).1.calls[i]? = some ⟨.token, .begun⟩)
    (hs : (initial.run m before).1.standing.needsLogin env.now m.threshold = false) :
    i ∉ posts (initial.run m (before ++ (env, .advance i) :: rest)).2 ∧
      i ∉ grants (initial.run m (before ++ (env, .advance i) :: rest)).2 ∧
      i ∉ (initial.run m (before ++ (env, .advance i) :: rest)).1.line ∧
      ∃ c, (initial.run m (before ++ (env, .advance i) :: rest)).1.calls[i]? = some c ∧
        ((initial.run m (before ++ (env, .advance i) :: rest)).1.isReady i = true ∨
          c.phase.isOver = true) := by
  have hline := orderly_run orderly_initial m (before ++ (env, .advance i) :: rest)
  obtain ⟨hb, hnew⟩ := Change.of_held hm hc hs (change_step m env _ _)
  rw [run_append, run_cons, hb, hnew, List.nil_append] at hline ⊢
  have hreads := calls_enter_self hc .reading
  obtain ⟨hgrants, c, hc', hbehind⟩ :=
    behind_run hreads rfl (not_mem_grants_of_begun before hc) m rest
  refine ⟨spent_run hreads rfl (not_mem_posts_of_canSend before hc rfl) m rest, hgrants, ?_, c,
    hc', ?_⟩
  · intro hmem
    obtain ⟨c', hc'', hin⟩ := hline.phased i hmem
    rw [← Option.some.inj (hc'.symm.trans hc''), Phase.inLine_of_isBehind hbehind] at hin
    cases hin
  · obtain ⟨d, phase⟩ := c
    cases phase with
    | reading => exact .inl (by simp [isReady, hc'])
    | finished _ | cancelled => exact .inr rfl
    | _ => cases hbehind

/-- **A call that finds its token not due once it has the guard sends nothing.** -/
theorem unsent_of_held_first {seen : Nat} (before rest : List (Surroundings × Event))
    (hc : (initial.run m before).1.calls[i]? = some ⟨.token, .waiting seen⟩)
    (hi : (initial.run m before).1.line.head? = some i)
    (hs : (initial.run m before).1.standing.needsLogin env.now m.threshold = false) :
    i ∉ posts (initial.run m (before ++ (env, .advance i) :: rest)).2 := by
  obtain ⟨hb, hnew⟩ := Change.of_held_first hc hi hs (change_step m env _ _)
  rw [run_append, run_cons, hb, hnew, ← List.append_assoc]
  refine spent_run (calls_enter_self hc _) rfl ?_ m rest
  rw [posts_append, show posts [Notice.granted i] = [] from rfl, List.append_nil]
  exact not_mem_posts_of_canSend before hc rfl

/-- A call that finds its token not due is served. -/
theorem finished_of_held (hm : m.ownToken = none) (before : List (Surroundings × Event))
    {rest : List (Surroundings × Event)}
    (hc : (initial.run m before).1.calls[i]? = some ⟨.token, .begun⟩)
    (hs : (initial.run m before).1.standing.needsLogin env.now m.threshold = false)
    (hkept : ∀ x ∈ rest, x.2 ≠ .cancel i) (hmoved : ∃ x ∈ rest, x.2 = .advance i) :
    ∃ token, (initial.run m (before ++ (env, .advance i) :: rest)).1.calls[i]?
      = some ⟨.token, .finished (.token (.ok token))⟩ := by
  have hserves : Serves ((initial.run m before).1.enter i .reading) i :=
    ⟨isSome_lease_of_held hs, .inl (calls_enter_self hc .reading)⟩
  rw [run_append, run_cons, (Change.of_held hm hc hs (change_step m env _ _)).1]
  exact hserves.run m hkept hmoved

/-! ### All of this -/

/-- **A token is served as long as there is one, and never an older one than before.** Logins and
calls for the token are under way in any number, their steps in any order; exchanges come to
anything, the clock goes forward or back, and calls may be given up.

A call for the token that is over has been told the token of the last exchange that had succeeded
by then, or, only if none had, what the last one failed with. If the call itself had an exchange
that succeeded, it was told that token or a later one. A call that began after another one was
answered has been told by a history that goes on from that one's.

A call that finds the token not due sends nothing, be it before the line or at its head. Before the
line it never gets there, nor does it get the guard. Whatever the others do, it is then over or free
to take its next step at any moment, and with that step it gets a token, unless it is given up. -/
theorem served_tokens (server : Url) (role : String) (account : ServiceAccount) (threshold : Span)
    (events : List (Surroundings × Event)) :
    let m := Method.kubernetes server role account threshold
    let a := (initial.run m events).1
    let notices := (initial.run m events).2
    (∀ i answer, a.calls[i]? = some ⟨.token, .finished answer⟩ →
      (∃ result, answer = .token result ∧ Told (beforeAnswer i notices) result) ∧
        ∀ issued, (i, issued) ∈ successes notices →
          ∃ older newer, successes (beforeAnswer i notices) = older ++ (i, issued) :: newer) ∧
    (∀ first rest, events = first ++ rest → ∀ i j answer,
      (initial.run m first).1.calls[i]? = some ⟨.token, .finished answer⟩ →
      (initial.run m first).1.calls.size ≤ j →
      successes (beforeAnswer i notices) <+: successes (beforeAnswer j notices)) ∧
    ∀ before env i rest, events = before ++ (env, .advance i) :: rest →
      (initial.run m before).1.standing.needsLogin env.now threshold = false →
      (∀ seen, (initial.run m before).1.calls[i]? = some ⟨.token, .waiting seen⟩ →
        (initial.run m before).1.line.head? = some i → i ∉ posts notices) ∧
      ((initial.run m before).1.calls[i]? = some ⟨.token, .begun⟩ →
        i ∉ posts notices ∧ i ∉ grants notices ∧ i ∉ a.line ∧
        (∃ c, a.calls[i]? = some c ∧ (a.isReady i = true ∨ c.phase.isOver = true)) ∧
        ((∀ x ∈ rest, x.2 ≠ .cancel i) → (∃ x ∈ rest, x.2 = .advance i) →
          ∃ token, a.calls[i]? = some ⟨.token, .finished (.token (.ok token))⟩)) := by
  intro m a notices
  have hm : m.ownToken = none := rfl
  refine ⟨?_, ?_, ?_⟩
  · intro i answer hc
    obtain ⟨-, htold, hown⟩ := (accounted_run hm events).accounts i _ hc
    exact ⟨htold rfl, fun issued hissued => List.append_of_mem (hown issued hissued)⟩
  · rintro first rest rfl i j answer hi hj
    exact ((beforeAnswer_grows hm first rest hi hj).filterMap _).filterMap _
  · rintro before env i rest rfl hs
    constructor
    · intro seen hc hi
      exact unsent_of_held_first before rest hc hi hs
    · intro hc
      obtain ⟨hposts, hgrants, hline, hfree⟩ := behind_of_held hm before rest hc hs
      exact ⟨hposts, hgrants, hline, hfree, finished_of_held hm before hc hs⟩

end Authenticator

end VaultTokens
