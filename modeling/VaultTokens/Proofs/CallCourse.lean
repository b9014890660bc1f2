import VaultTokens.Proofs.SharedGuard

/-!
# The course of one call

Calls of any number are under way at once, but an event is about one call at most, and whatever it
lets others know is about that same call. A call can therefore be followed by itself: every change
either leaves it alone or takes it to another phase, and some sets of phases are never left again. A
call that is over stays over with its answer. A call that has nothing to send any more sends
nothing. A call behind the line does not come back to it.

## Main results

* `Change.calls_eq_of_ne`, `Change.calls_cases` — an event leaves the other calls alone
* `Change.finished`, `Change.spent`, `Change.behind` — what stays so about one call
* `posted_run` — a call sends one request at most
* `suited_run` — a call is answered what it demanded
* `Change.reflects` — the standing goes along with the history of what was recorded
-/

namespace VaultTokens

namespace Authenticator

variable {m : Method} {env : Surroundings} {a b : Authenticator} {e : Event}
  {past new : List Notice} {i : Nat} {c : Call}

/-! ### Events are about one call -/

/-- The call that an event is about, unless it only begins one. -/
def Event.call? : Event → Option Nat
  | .begin _ => none
  | .advance i => some i
  | .reply i _ => some i
  | .cancel i => some i

/-- The call that a notice is about. -/
def Notice.call : Notice → Nat
  | .granted i => i
  | .sent i _ => i
  | .ended i _ => i
  | .recorded i _ _ => i
  | .answered i _ => i

/-- What an event lets others know is about its own call. -/
theorem Change.call?_eq_of_mem (hchange : Change m env a e b new) {n : Notice} (hn : n ∈ new) :
    e.call? = some n.call := by
  cases hchange with
  | nothing | begins | looks | passes | joins | turns | yields => cases hn
  | serves | enters | sends | lacks | hears | records | leaves | reads =>
    rw [List.mem_singleton.mp hn]
    rfl

theorem mem_grants : i ∈ grants past ↔ Notice.granted i ∈ past := by
  rw [grants, List.mem_filterMap]
  constructor
  · rintro ⟨n, hn, hi⟩
    cases n with
    | granted j => exact Option.some.inj hi ▸ hn
    | _ => cases hi
  · intro hn
    exact ⟨_, hn, rfl⟩

theorem mem_posts : i ∈ posts past ↔ ∃ r, Notice.sent i r ∈ past := by
  rw [posts, List.mem_filterMap]
  constructor
  · rintro ⟨n, hn, hi⟩
    cases n with
    | sent j r => exact ⟨r, Option.some.inj hi ▸ hn⟩
    | _ => cases hi
  · rintro ⟨r, hn⟩
    exact ⟨_, hn, rfl⟩

theorem Change.grants_of_ne (hchange : Change m env a e b new) (hi : e.call? ≠ some i) :
    i ∉ grants new := by
  intro hmem
  exact hi (hchange.call?_eq_of_mem (mem_grants.mp hmem))

theorem Change.posts_of_ne (hchange : Change m env a e b new) (hi : e.call? ≠ some i) :
    i ∉ posts new := by
  intro hmem
  obtain ⟨r, hr⟩ := mem_posts.mp hmem
  exact hi (hchange.call?_eq_of_mem hr)

/-- A call that is there stays there when another one begins. -/
theorem getElem?_push_call (hc : a.calls[i]? = some c) (d : Demand) :
    (a.calls.push ⟨d, .begun⟩)[i]? = some c := by
  have hlt := (Array.getElem?_eq_some_iff.mp hc).1
  rwa [Array.getElem?_push_lt hlt, ← Array.getElem?_eq_getElem hlt]

/-- **An event leaves the other calls alone.** -/
theorem Change.calls_eq_of_ne (hchange : Change m env a e b new) (hc : a.calls[i]? = some c)
    (hi : e.call? ≠ some i) : b.calls[i]? = some c := by
  have stays : ∀ {j : Nat} {phase : Phase}, b.calls = (a.enter j phase).calls →
      some j ≠ some i → b.calls[i]? = some c := by
    intro j phase hb hj
    rw [hb, calls_enter_of_ne fun hji => hj (congrArg some hji)]
    exact hc
  cases hchange with
  | nothing => exact hc
  | begins d => exact getElem?_push_call hc d
  | looks | serves | passes | enters | sends | lacks | hears | reads => exact stays rfl hi
  | joins | records | leaves | turns | yields => exact stays rfl hi

/-- Calls do not vanish, and they keep to their demands. -/
theorem Change.exists_call (hchange : Change m env a e b new) (hc : a.calls[i]? = some c) :
    ∃ phase, b.calls[i]? = some ⟨c.demand, phase⟩ := by
  have stays : ∀ {j : Nat} {phase : Phase}, b.calls = (a.enter j phase).calls →
      ∃ phase, b.calls[i]? = some ⟨c.demand, phase⟩ := by
    intro j phase hb
    rw [hb, getElem?_calls_enter, hc]
    split
    · exact ⟨phase, rfl⟩
    · exact ⟨c.phase, rfl⟩
  cases hchange with
  | nothing => exact ⟨c.phase, hc⟩
  | begins d => exact ⟨c.phase, getElem?_push_call hc d⟩
  | looks | serves | passes | enters | sends | lacks | hears | reads => exact stays rfl
  | joins | records | leaves | turns | yields => exact stays rfl

/-- What is found after an event is its own call, an old one or one that has just begun. -/
theorem Change.calls_cases (hchange : Change m env a e b new) (hc : b.calls[i]? = some c) :
    e.call? = some i ∨ a.calls[i]? = some c ∨ c.phase = .begun := by
  by_cases hi : e.call? = some i
  · exact .inl hi
  right
  cases ha : a.calls[i]? with
  | some c' =>
    rw [← hc, hchange.calls_eq_of_ne ha hi]
    exact .inl rfl
  | none =>
    have gone : ∀ {j : Nat} {phase : Phase}, b.calls ≠ (a.enter j phase).calls := by
      intro j phase hb
      rw [hb, getElem?_calls_enter, ha] at hc
      split at hc <;> cases hc
    cases hchange with
    | nothing => exact absurd (ha.symm.trans hc) nofun
    | begins d =>
      rw [Array.getElem?_push] at hc
      split at hc
      · obtain rfl := Option.some.inj hc
        exact .inr rfl
      · exact .inl (ha.symm.trans hc)
    | looks | serves | passes | enters | sends | lacks | hears | reads => exact absurd rfl gone
    | joins | records | leaves | turns | yields => exact absurd rfl gone

/-! ### Phases that are not left again -/

/-- **A call that is over stays over with its answer, and nothing more is heard of it.** -/
theorem Change.finished (hchange : Change m env a e b new) {d : Demand} {answer : Answer}
    (hc : a.calls[i]? = some ⟨d, .finished answer⟩) :
    b.calls[i]? = some ⟨d, .finished answer⟩ ∧ ∀ n ∈ new, n.call ≠ i := by
  by_cases hi : e.call? = some i
  · cases hchange with
    | nothing => exact ⟨hc, List.forall_mem_nil _⟩
    | begins d => cases hi
    | yields hc' hp =>
      obtain rfl := Option.some.inj hi
      obtain ⟨-, rfl⟩ := Call.mk.inj (Option.some.inj (hc'.symm.trans hc))
      exact absurd rfl (hp answer)
    | looks hc' | serves hc' | passes hc' | joins hc' | enters hc' | sends hc' | lacks hc'
    | hears _ hc' | records hc' | leaves hc' | turns hc' | reads hc' =>
      obtain rfl := Option.some.inj hi
      cases Option.some.inj (hc'.symm.trans hc)
  · exact ⟨hchange.calls_eq_of_ne hc hi, fun n hn hni => hi (hni ▸ hchange.call?_eq_of_mem hn)⟩

theorem answer?_eq_some {answer : Answer} :
    a.answer? i = some answer ↔ ∃ d, a.calls[i]? = some ⟨d, .finished answer⟩ := by
  rw [answer?]
  constructor
  · intro h
    split at h
    · rename_i d answer' hc
      obtain rfl := Option.some.inj h
      exact ⟨d, hc⟩
    · cases h
  · rintro ⟨d, hc⟩
    rw [hc]

/-- A call that is over stays over with its answer. -/
theorem finished_run {d : Demand} {answer : Answer}
    (hc : a.calls[i]? = some ⟨d, .finished answer⟩) (m : Method)
    (events : List (Surroundings × Event)) :
    (a.run m events).1.calls[i]? = some ⟨d, .finished answer⟩ ∧
      ∀ n ∈ (a.run m events).2, n.call ≠ i := by
  refine run_induction
    (fun a past => a.calls[i]? = some ⟨d, .finished answer⟩ ∧ ∀ n ∈ past, n.call ≠ i)
    ?_ ⟨hc, List.forall_mem_nil _⟩
  rintro env e - a b past new hchange ⟨hc, hpast⟩
  obtain ⟨hc', hnew⟩ := hchange.finished hc
  refine ⟨hc', fun n hn => ?_⟩
  rcases List.mem_append.mp hn with hn | hn
  · exact hpast n hn
  · exact hnew n hn

/-- Whether a call in this phase may still send a request. -/
def Phase.canSend : Phase → Bool
  | .begun | .arriving _ | .waiting _ | .presenting => true
  | _ => false

/-- **A call that has nothing to send any more sends nothing.** -/
theorem Change.spent (hchange : Change m env a e b new) (hc : a.calls[i]? = some c)
    (hspent : c.phase.canSend = false) :
    i ∉ posts new ∧ ∃ c', b.calls[i]? = some c' ∧ c'.phase.canSend = false := by
  by_cases hi : e.call? = some i
  · have goes : ∀ {phase : Phase}, b.calls = (a.enter i phase).calls → phase.canSend = false →
        ∃ c', b.calls[i]? = some c' ∧ c'.phase.canSend = false := by
      intro phase hb hphase
      exact ⟨_, by rw [hb, calls_enter_self hc phase], hphase⟩
    cases hchange with
    | nothing => exact ⟨nofun, c, hc, hspent⟩
    | begins d => cases hi
    | looks hc' | serves hc' | passes hc' | joins hc' | enters hc' | sends hc' | lacks hc' =>
      obtain rfl := Option.some.inj hi
      rw [← Option.some.inj (hc'.symm.trans hc)] at hspent
      cases hspent
    | records hc' =>
      rename_i j d o
      obtain rfl := Option.some.inj hi
      exact ⟨nofun, goes rfl (by cases d <;> rfl)⟩
    | hears _ hc' | leaves hc' | turns hc' | reads hc' | yields hc' =>
      obtain rfl := Option.some.inj hi
      exact ⟨nofun, goes rfl rfl⟩
  · exact ⟨hchange.posts_of_ne hi, c, hchange.calls_eq_of_ne hc hi, hspent⟩

/-- A call that has nothing to send sends nothing. -/
theorem spent_run (hc : a.calls[i]? = some c) (hspent : c.phase.canSend = false)
    (hposts : i ∉ posts past) (m : Method) (rest : List (Surroundings × Event)) :
    i ∉ posts (past ++ (a.run m rest).2) := by
  refine (run_induction_after
    (fun a past => i ∉ posts past ∧ ∃ c', a.calls[i]? = some c' ∧ c'.phase.canSend = false)
    ?_ ⟨hposts, c, hc, hspent⟩).1
  rintro env e - a b past new hchange ⟨hposts, c, hc, hspent⟩
  obtain ⟨hnew, hc'⟩ := hchange.spent hc hspent
  rw [posts_append, List.mem_append]
  exact ⟨not_or.mpr ⟨hposts, hnew⟩, hc'⟩

/-- Whether a call in this phase has nothing more to do with the line. -/
def Phase.isBehind : Phase → Bool
  | .reading | .finished _ | .cancelled => true
  | _ => false

theorem Phase.inLine_of_isBehind {phase : Phase} (h : phase.isBehind = true) :
    phase.inLine = false := by
  cases phase <;> first | rfl | cases h

/-- **A call behind the line does not come back to it.** -/
theorem Change.behind (hchange : Change m env a e b new) (hc : a.calls[i]? = some c)
    (hbehind : c.phase.isBehind = true) :
    i ∉ grants new ∧ ∃ c', b.calls[i]? = some c' ∧ c'.phase.isBehind = true := by
  by_cases hi : e.call? = some i
  · have goes : ∀ {phase : Phase}, b.calls = (a.enter i phase).calls → phase.isBehind = true →
        ∃ c', b.calls[i]? = some c' ∧ c'.phase.isBehind = true := by
      intro phase hb hphase
      exact ⟨_, by rw [hb, calls_enter_self hc phase], hphase⟩
    cases hchange with
    | nothing => exact ⟨nofun, c, hc, hbehind⟩
    | begins d => cases hi
    | looks hc' | serves hc' | passes hc' | joins hc' | enters hc' | sends hc' | lacks hc'
    | hears _ hc' | records hc' | leaves hc' | turns hc' =>
      obtain rfl := Option.some.inj hi
      rw [← Option.some.inj (hc'.symm.trans hc)] at hbehind
      cases hbehind
    | reads hc' | yields hc' =>
      obtain rfl := Option.some.inj hi
      exact ⟨nofun, goes rfl rfl⟩
  · exact ⟨hchange.grants_of_ne hi, c, hchange.calls_eq_of_ne hc hi, hbehind⟩

/-- A call behind the line is not heard of there again. -/
theorem behind_run (hc : a.calls[i]? = some c) (hbehind : c.phase.isBehind = true)
    (hgrants : i ∉ grants past) (m : Method) (rest : List (Surroundings × Event)) :
    i ∉ grants (past ++ (a.run m rest).2) ∧
      ∃ c', (a.run m rest).1.calls[i]? = some c' ∧ c'.phase.isBehind = true := by
  refine run_induction_after
    (fun a past => i ∉ grants past ∧ ∃ c', a.calls[i]? = some c' ∧ c'.phase.isBehind = true)
    ?_ ⟨hgrants, c, hc, hbehind⟩
  rintro env e - a b past new hchange ⟨hgrants, c, hc, hbehind⟩
  obtain ⟨hnew, hc'⟩ := hchange.behind hc hbehind
  rw [grants_append, List.mem_append]
  exact ⟨not_or.mpr ⟨hgrants, hnew⟩, hc'⟩

/-! ### One request at most -/

/-- No call has sent two requests, and who has sent one sends no other. -/
structure Posted (calls : Array Call) (posts : List Nat) : Prop where
  /-- No call has sent two requests. -/
  nodup : posts.Nodup
  /-- Who has sent one is in no phase of sending another. -/
  spent : ∀ i ∈ posts, ∃ c, calls[i]? = some c ∧ c.phase.canSend = false

theorem posted_initial : Posted initial.calls [] := by
  constructor
  · exact List.nodup_nil
  · intro i hi
    cases hi

theorem Change.posts_new (hchange : Change m env a e b new) :
    posts new = [] ∨ ∃ i d r, a.calls[i]? = some ⟨d, .presenting⟩ ∧ posts new = [i] ∧
      b = a.enter i (.exchanging r) := by
  cases hchange with
  | sends hc => exact .inr ⟨_, _, _, hc, rfl, rfl⟩
  | _ => exact .inl rfl

theorem Posted.step (h : Posted a.calls (posts past)) (hchange : Change m env a e b new) :
    Posted b.calls (posts (past ++ new)) := by
  rw [posts_append]
  obtain hnone | ⟨j, d, r, hc, hone, rfl⟩ := hchange.posts_new
  · rw [hnone, List.append_nil]
    refine ⟨h.nodup, fun i hi => ?_⟩
    obtain ⟨c, hc, hspent⟩ := h.spent i hi
    exact (hchange.spent hc hspent).2
  · -- who presents a service account token has not sent anything before
    have hj : j ∉ posts past := by
      intro hmem
      obtain ⟨c, hc', hspent⟩ := h.spent j hmem
      rw [← Option.some.inj (hc.symm.trans hc')] at hspent
      cases hspent
    rw [hone]
    constructor
    · exact List.nodup_append.mpr ⟨h.nodup, List.pairwise_singleton _ j, by
        rintro i hi k hk rfl
        rw [List.mem_singleton.mp hk] at hi
        exact hj hi⟩
    · intro i hi
      rcases List.mem_append.mp hi with hi | hi
      · obtain ⟨c, hc', hspent⟩ := h.spent i hi
        exact (hchange.spent hc' hspent).2
      · rw [List.mem_singleton.mp hi]
        exact ⟨_, calls_enter_self hc _, rfl⟩

/-- **A call sends one request at most.** -/
theorem posted_run (m : Method) (events : List (Surroundings × Event)) :
    Posted (initial.run m events).1.calls (posts (initial.run m events).2) :=
  run_induction (fun a past => Posted a.calls (posts past))
    (fun _ _ _ _ _ hchange h => h.step hchange) posted_initial

/-! ### Answers and demands -/

/-- Whether a call for this demand may be in this phase: what it brings out of the line or ends with
answers the demand. -/
def Demand.admits : Demand → Phase → Bool
  | .login, .leaving none | .login, .leaving (some (.token _)) | .login, .reading
  | .login, .finished (.token _) => false
  | .token, .leaving (some _) | .token, .finished (.issued _) => false
  | _, _ => true

/-- Every call is answered what it demanded. -/
def Suited (a : Authenticator) : Prop :=
  ∀ (i : Nat) (c : Call), a.calls[i]? = some c → c.demand.admits c.phase = true

theorem suited_initial : Suited initial := by
  intro i c hc
  cases hc

theorem Suited.enter (h : Suited a) {d : Demand} {phase next : Phase}
    (hc : a.calls[i]? = some ⟨d, phase⟩) (hnext : d.admits next = true) :
    Suited (a.enter i next) := by
  intro j c' hj
  obtain ⟨-, rfl⟩ | ⟨-, hj⟩ := calls_enter_cases hc hj
  · exact hnext
  · exact h j c' hj

theorem admits_admitted (m : Method) (env : Surroundings) (a : Authenticator) (d : Demand)
    (seen : Nat) : d.admits (a.admitted m env d seen) = true := by
  cases d with
  | login =>
    rw [admitted]
    split <;> rfl
  | token =>
    rw [admitted]
    split <;> rfl

theorem Suited.step (h : Suited a) (hchange : Change m env a e b new) : Suited b := by
  have plain : ∀ {j : Nat} {d : Demand} {phase next : Phase}, a.calls[j]? = some ⟨d, phase⟩ →
      (∀ d : Demand, d.admits next = true) → Suited (a.enter j next) :=
    fun hc hnext => h.enter hc (hnext _)
  cases hchange with
  | nothing => exact h
  | begins d =>
    intro j c hj
    rw [Array.getElem?_push] at hj
    split at hj
    · obtain rfl := Option.some.inj hj
      cases d <;> rfl
    · exact h j c hj
  | looks hc | joins hc | sends hc | lacks hc | hears _ hc | yields hc =>
    exact plain hc fun d => by cases d <;> rfl
  | serves hc | passes hc => exact h.enter hc rfl
  | enters hc => exact h.enter hc (admits_admitted ..)
  | records hc =>
    rename_i d o
    exact h.enter hc (by cases d <;> rfl)
  | leaves hc =>
    rename_i d answer
    have hd := h _ _ hc
    refine h.enter hc ?_
    cases d <;> cases answer <;> first | rfl | cases hd
  | turns hc =>
    rename_i d
    have hd := h _ _ hc
    refine h.enter hc ?_
    cases d <;> first | rfl | cases hd
  | reads hc =>
    rename_i d
    have hd := h _ _ hc
    refine h.enter hc ?_
    cases d <;> first | rfl | cases hd

/-- **Every call is answered what it demanded.** -/
theorem suited_run (m : Method) (events : List (Surroundings × Event)) :
    Suited (initial.run m events).1 :=
  run_induction (fun a _ => Suited a) (fun _ _ _ _ _ hchange h => h.step hchange) suited_initial

/-! ### The standing along a run -/

/-- What was recorded, newest first. -/
def history (past : List Notice) : List (Timestamp × Except Failure Issued) :=
  ((recordings past).map Prod.snd).reverse

theorem Change.reflects (hchange : Change m env a e b new)
    (h : a.standing.Reflects (history past)) : b.standing.Reflects (history (past ++ new)) := by
  rw [history, recordings_append, List.map_append, List.reverse_append]
  cases hchange with
  | records hc => exact h.record _ _
  | nothing | begins | looks | serves | passes | joins | enters | sends | lacks | hears | leaves
  | turns | reads | yields => exact h

end Authenticator

end VaultTokens
