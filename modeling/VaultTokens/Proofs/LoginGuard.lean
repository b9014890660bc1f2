import VaultTokens.Authenticator

/-!
# Who holds the login guard

Calls line up for the guard and the first in line holds it. The line is a list of numbers and the
phases of the calls are kept elsewhere, so that nothing but the order of the steps makes the two
agree. `Orderly` says how they do: the line has no call twice, it has exactly the calls whose phase
is one of standing in line, and a call whose phase is one of holding the guard is its first.

## One step at a time

`Change` lists what an event can do to a strategy, one constructor for each phase that a call can
leave. Every invariant of a strategy is proved by cases on it, and nothing else opens `step`. An
invariant may speak of the notices so far; `run_induction` carries it through a run.

## Main results

* `change_step` — every step is a change
* `run_induction` — what every change preserves holds after every run
* `orderly_run` — the line and the phases agree after any run
* `Orderly.eq_of_pending` — at most one call waits for a reply
* `Orderly.isOver_of_still` — where nothing can happen any more, every call is over
* `moves_le` — there are only so many steps that take a call further
-/

namespace VaultTokens

namespace Authenticator

variable {m : Method} {env : Surroundings} {a b : Authenticator} {e : Event}
  {past new : List Notice}

/-! ### One step -/

/-- Whether an event takes a call further: a step that it can take, or the reply it waits for. -/
def isMovedBy (a : Authenticator) : Event → Bool
  | .advance i => a.isReady i
  | .reply i _ => (a.pending? i).isSome
  | _ => false

/-- What an event can do to a strategy, and what it lets others know. -/
inductive Change (m : Method) (env : Surroundings) (a : Authenticator) :
    Event → Authenticator → List Notice → Prop where
  /-- Nothing. -/
  | nothing {e : Event} (he : a.isMovedBy e = false) : Change m env a e a []
  /-- A call begins. -/
  | begins (d : Demand) :
    Change m env a (.begin d) { a with calls := a.calls.push ⟨d, .begun⟩ } []
  /-- A call that has to log in looks at how many exchanges there were. -/
  | looks {i : Nat} {d : Demand} (hc : a.calls[i]? = some ⟨d, .begun⟩)
    (hd : d = .token →
      m.ownToken = none ∧ a.standing.needsLogin env.now m.threshold = true) :
    Change m env a (.advance i) (a.enter i (.arriving a.recorded)) []
  /-- A call gets the token that is served without an exchange. -/
  | serves {i : Nat} {token : String} (hc : a.calls[i]? = some ⟨.token, .begun⟩)
    (hm : m.ownToken = some token) :
    Change m env a (.advance i) (a.enter i (.finished (.token (.ok token))))
      [.answered i (.token (.ok token))]
  /-- A call for the token passes by the line. -/
  | passes {i : Nat} (hc : a.calls[i]? = some ⟨.token, .begun⟩)
    (hs : a.standing.needsLogin env.now m.threshold = false) :
    Change m env a (.advance i) (a.enter i .reading) []
  /-- A call joins the line. -/
  | joins {i seen : Nat} {d : Demand} (hc : a.calls[i]? = some ⟨d, .arriving seen⟩) :
    Change m env a (.advance i) ({ a with line := a.line ++ [i] }.enter i (.waiting seen)) []
  /-- A call gets the guard and looks again. -/
  | enters {i seen : Nat} {d : Demand} (hc : a.calls[i]? = some ⟨d, .waiting seen⟩)
    (hi : a.line.head? = some i) :
    Change m env a (.advance i) (a.enter i (a.admitted m env d seen)) [.granted i]
  /-- A call sends its request. -/
  | sends {i : Nat} {d : Demand} {r : Request} (hc : a.calls[i]? = some ⟨d, .presenting⟩)
    (hr : m.prepare env.files = .ok r) :
    Change m env a (.advance i) (a.enter i (.exchanging r)) [.sent i r]
  /-- A call has nothing to send. -/
  | lacks {i : Nat} {d : Demand} {f : Failure} (hc : a.calls[i]? = some ⟨d, .presenting⟩)
    (hf : m.prepare env.files = .error f) :
    Change m env a (.advance i) (a.enter i (.recording (.error f))) [.ended i (.error f)]
  /-- The reply to a call arrives. -/
  | hears {i : Nat} {d : Demand} {r : Request} (reply : Reply)
    (hc : a.calls[i]? = some ⟨d, .exchanging r⟩) :
    Change m env a (.reply i reply) (a.enter i (.recording (m.conclude r reply)))
      [.ended i (m.conclude r reply)]
  /-- A call records its exchange. -/
  | records {i : Nat} {d : Demand} {o : Except Failure Issued}
    (hc : a.calls[i]? = some ⟨d, .recording o⟩) :
    Change m env a (.advance i)
      ({ a with
          standing := a.standing.record env.now o
          recorded := a.recorded + 1 }.enter i (afterRecording d o))
      [.recorded i env.now o]
  /-- A call leaves the line with its answer. -/
  | leaves {i : Nat} {d : Demand} {answer : Answer}
    (hc : a.calls[i]? = some ⟨d, .leaving (some answer)⟩) :
    Change m env a (.advance i) ({ a with line := a.line.erase i }.enter i (.finished answer))
      [.answered i answer]
  /-- A call leaves the line to read the token. -/
  | turns {i : Nat} {d : Demand} (hc : a.calls[i]? = some ⟨d, .leaving none⟩) :
    Change m env a (.advance i) ({ a with line := a.line.erase i }.enter i .reading) []
  /-- A call reads the token. -/
  | reads {i : Nat} {d : Demand} (hc : a.calls[i]? = some ⟨d, .reading⟩) :
    Change m env a (.advance i) (a.enter i (.finished (.token (served a.standing))))
      [.answered i (.token (served a.standing))]
  /-- A call that is not over is given up. -/
  | yields {i : Nat} {d : Demand} {phase : Phase} (hc : a.calls[i]? = some ⟨d, phase⟩)
    (hp : ∀ answer, phase ≠ .finished answer) :
    Change m env a (.cancel i) ({ a with line := a.line.erase i }.enter i .cancelled) []

theorem change_advance (m : Method) (env : Surroundings) (a : Authenticator) (i : Nat) :
    Change m env a (.advance i) (a.advance m env i).1 (a.advance m env i).2 := by
  rw [advance]
  split
  · rename_i hc
    exact .nothing (by simp [isMovedBy, isReady, hc])
  rename_i call hc
  obtain ⟨d, phase⟩ := call
  cases phase with
  | begun =>
    cases d with
    | login => exact .looks hc fun hd => by cases hd
    | token =>
      simp only
      split
      · rename_i token hm
        exact .serves hc hm
      · rename_i hm
        split
        · rename_i hs
          exact .looks hc fun _ => ⟨hm, hs⟩
        · rename_i hs
          exact .passes hc (by simpa using hs)
  | arriving seen => exact .joins hc
  | waiting seen =>
    simp only
    split
    · rename_i hi
      exact .enters hc hi
    · rename_i hi
      exact .nothing (by simp [isMovedBy, isReady, hc, hi])
  | presenting =>
    simp only
    split
    · rename_i r hr
      exact .sends hc hr
    · rename_i f hf
      exact .lacks hc hf
  | recording o => exact .records hc
  | leaving answer =>
    cases answer with
    | none => exact .turns hc
    | some answer => exact .leaves hc
  | reading => exact .reads hc
  | exchanging _ | finished _ | cancelled => exact .nothing (by simp [isMovedBy, isReady, hc])

/-- **Every step is a change.** -/
theorem change_step (m : Method) (env : Surroundings) (a : Authenticator) (e : Event) :
    Change m env a e (a.step m env e).1 (a.step m env e).2 := by
  cases e with
  | begin d => exact .begins d
  | advance i => exact change_advance m env a i
  | reply i reply =>
    simp only [step, receive]
    split
    · rename_i d r hc
      exact .hears reply hc
    · rename_i hc
      refine .nothing ?_
      rw [isMovedBy, pending?]
      split
      · rename_i d r hr
        exact absurd hr (hc d r)
      · rfl
  | cancel i =>
    simp only [step, cancel]
    split
    · exact .nothing rfl
    · exact .nothing rfl
    · rename_i call hover hc
      exact .yields hc fun answer hp => hover call.demand answer (by rw [← hp])

theorem run_cons (m : Method) (a : Authenticator) (env : Surroundings) (e : Event)
    (rest : List (Surroundings × Event)) :
    a.run m ((env, e) :: rest) = (((a.step m env e).1.run m rest).1,
      (a.step m env e).2 ++ ((a.step m env e).1.run m rest).2) := rfl

theorem run_append (m : Method) (a : Authenticator) (before after : List (Surroundings × Event)) :
    a.run m (before ++ after) = (((a.run m before).1.run m after).1,
      (a.run m before).2 ++ ((a.run m before).1.run m after).2) := by
  induction before generalizing a with
  | nil => rfl
  | cons x rest ih => rw [List.cons_append, run_cons, run_cons, ih, List.append_assoc]

/-- A property that speaks of a strategy and of the notices so far holds after a run if every change
that the events of the run can bring about preserves it. -/
theorem run_induction_after (P : Authenticator → List Notice → Prop)
    {events : List (Surroundings × Event)}
    (hstep : ∀ {env e}, (env, e) ∈ events → ∀ {a b past new},
      Change m env a e b new → P a past → P b (past ++ new))
    (h : P a past) : P (a.run m events).1 (past ++ (a.run m events).2) := by
  induction events generalizing a past with
  | nil =>
    rw [run, List.append_nil]
    exact h
  | cons x rest ih =>
    obtain ⟨env, e⟩ := x
    have hfirst := hstep List.mem_cons_self (change_step m env a e) h
    rw [run_cons, ← List.append_assoc]
    exact ih (fun hx => hstep (List.mem_cons_of_mem _ hx)) hfirst

/-- **What every change preserves holds after every run.** -/
theorem run_induction (P : Authenticator → List Notice → Prop)
    {events : List (Surroundings × Event)}
    (hstep : ∀ {env e}, (env, e) ∈ events → ∀ {a b past new},
      Change m env a e b new → P a past → P b (past ++ new))
    (h : P a []) : P (a.run m events).1 (a.run m events).2 :=
  run_induction_after P hstep h

/-! ### The line and the phases -/

/-- Whether a call in this phase stands in line, be it as the first. -/
def Phase.inLine : Phase → Bool
  | .waiting _ | .presenting | .exchanging _ | .recording _ | .leaving _ => true
  | _ => false

/-- Whether a call in this phase holds the guard. -/
def Phase.holds : Phase → Bool
  | .presenting | .exchanging _ | .recording _ | .leaving _ => true
  | _ => false

theorem getElem?_calls_enter (a : Authenticator) (i j : Nat) (phase : Phase) :
    (a.enter i phase).calls[j]? =
      if i = j then a.calls[j]?.map (fun c => { c with phase := phase }) else a.calls[j]? := by
  rw [enter, Array.getElem?_modify]

theorem calls_enter_self {i : Nat} {c : Call} (hc : a.calls[i]? = some c) (phase : Phase) :
    (a.enter i phase).calls[i]? = some { c with phase := phase } := by
  rw [getElem?_calls_enter, if_pos rfl, hc]
  rfl

theorem calls_enter_of_ne {i j : Nat} (h : i ≠ j) (phase : Phase) :
    (a.enter i phase).calls[j]? = a.calls[j]? := by
  rw [getElem?_calls_enter, if_neg h]

/-- Every call of a strategy in which one call has gone on is that call or an old one. -/
theorem calls_enter_cases {i j : Nat} {c c' : Call} {phase : Phase} (hc : a.calls[i]? = some c)
    (hj : (a.enter i phase).calls[j]? = some c') :
    (j = i ∧ c' = { c with phase := phase }) ∨ (j ≠ i ∧ a.calls[j]? = some c') := by
  by_cases hji : j = i
  · subst hji
    rw [calls_enter_self hc] at hj
    exact .inl ⟨rfl, (Option.some.inj hj).symm⟩
  · rw [calls_enter_of_ne (Ne.symm hji)] at hj
    exact .inr ⟨hji, hj⟩

/-- The line and the phases of the calls agree. -/
structure Orderly (a : Authenticator) : Prop where
  /-- No call stands in line twice. -/
  nodup : a.line.Nodup
  /-- Who stands in line has a phase of standing there. -/
  phased : ∀ i ∈ a.line, ∃ c, a.calls[i]? = some c ∧ c.phase.inLine = true
  /-- Who has such a phase stands in line. -/
  lined : ∀ i c, a.calls[i]? = some c → c.phase.inLine = true → i ∈ a.line
  /-- Who holds the guard is the first. -/
  first : ∀ i c, a.calls[i]? = some c → c.phase.holds = true → a.line.head? = some i

theorem orderly_initial : Orderly initial := by
  refine ⟨List.nodup_nil, ?_, ?_, ?_⟩ <;> simp [initial]

/-- A call that goes on without moving in the line leaves it in order. -/
theorem Orderly.enter (h : Orderly a) {i : Nat} {c : Call} {phase : Phase}
    (hc : a.calls[i]? = some c) (hline : phase.inLine = c.phase.inLine)
    (hholds : phase.holds = true → a.line.head? = some i) : Orderly (a.enter i phase) := by
  refine ⟨h.nodup, fun j hj => ?_, fun j c' hj hin => ?_, fun j c' hj hin => ?_⟩
  · obtain ⟨c', hc', hin⟩ := h.phased j hj
    by_cases hij : i = j
    · subst hij
      obtain rfl := Option.some.inj (hc.symm.trans hc')
      exact ⟨_, calls_enter_self hc phase, hline.trans hin⟩
    · exact ⟨c', by rwa [calls_enter_of_ne hij], hin⟩
  · obtain ⟨rfl, rfl⟩ | ⟨-, hj⟩ := calls_enter_cases hc hj
    · exact h.lined j c hc (hline.symm.trans hin)
    · exact h.lined j c' hj hin
  · obtain ⟨rfl, rfl⟩ | ⟨-, hj⟩ := calls_enter_cases hc hj
    · exact hholds hin
    · exact h.first j c' hj hin

/-- A call that joins the line at its end leaves it in order. -/
theorem Orderly.join (h : Orderly a) {i : Nat} {c : Call} (hc : a.calls[i]? = some c)
    (hout : c.phase.inLine = false) (seen : Nat) :
    Orderly ({ a with line := a.line ++ [i] }.enter i (.waiting seen)) := by
  have hi : i ∉ a.line := by
    intro hi
    obtain ⟨c', hc', hin⟩ := h.phased i hi
    obtain rfl := Option.some.inj (hc.symm.trans hc')
    rw [hout] at hin
    cases hin
  have hc' : ({ a with line := a.line ++ [i] } : Authenticator).calls[i]? = some c := hc
  refine ⟨?_, fun j hj => ?_, fun j c' hj hin => ?_, fun j c' hj hin => ?_⟩
  · exact List.nodup_append.mpr ⟨h.nodup, List.pairwise_singleton _ i, by
      rintro j hj k hk rfl
      rw [List.mem_singleton.mp hk] at hj
      exact hi hj⟩
  · by_cases hij : i = j
    · subst hij
      exact ⟨_, calls_enter_self hc' _, rfl⟩
    · rcases List.mem_append.mp hj with hj | hj
      · obtain ⟨c', hc', hin⟩ := h.phased j hj
        exact ⟨c', by rwa [calls_enter_of_ne hij], hin⟩
      · exact absurd (List.mem_singleton.mp hj).symm hij
  · obtain ⟨rfl, -⟩ | ⟨-, hj⟩ := calls_enter_cases hc' hj
    · exact List.mem_append_right _ (List.mem_singleton_self _)
    · exact List.mem_append_left _ (h.lined j c' hj hin)
  · obtain ⟨-, rfl⟩ | ⟨-, hj⟩ := calls_enter_cases hc' hj
    · cases hin
    · rw [line_enter, List.head?_append, h.first j c' hj hin]
      rfl

/-- A call that leaves the line leaves the others in order. -/
theorem Orderly.leave (h : Orderly a) {i : Nat} {c : Call} {phase : Phase}
    (hc : a.calls[i]? = some c) (hout : phase.inLine = false) (hholds : phase.holds = false) :
    Orderly ({ a with line := a.line.erase i }.enter i phase) := by
  have hc' : ({ a with line := a.line.erase i } : Authenticator).calls[i]? = some c := hc
  refine ⟨h.nodup.erase i, fun j hj => ?_, fun j c' hj hin => ?_, fun j c' hj hin => ?_⟩
  · rw [line_enter, h.nodup.mem_erase_iff] at hj
    obtain ⟨c', hc', hin⟩ := h.phased j hj.2
    exact ⟨c', by rwa [calls_enter_of_ne (Ne.symm hj.1)], hin⟩
  · obtain ⟨-, rfl⟩ | ⟨hji, hj⟩ := calls_enter_cases hc' hj
    · exact absurd (hout.symm.trans hin) nofun
    · exact h.nodup.mem_erase_iff.mpr ⟨hji, h.lined j c' hj hin⟩
  · obtain ⟨-, rfl⟩ | ⟨hji, hj⟩ := calls_enter_cases hc' hj
    · exact absurd (hholds.symm.trans hin) nofun
    · -- the first in line is another one, so it stays the first
      have hfirst := h.first j c' hj hin
      rw [line_enter]
      obtain ⟨rest, hrest⟩ : ∃ rest, a.line = j :: rest := List.head?_eq_some_iff.mp hfirst
      rw [show ({ a with line := a.line.erase i } : Authenticator).line = a.line.erase i from rfl,
        hrest, List.erase_cons_tail (by simpa using hji)]
      rfl

theorem admitted_cases (m : Method) (env : Surroundings) (a : Authenticator) (d : Demand)
    (seen : Nat) : a.admitted m env d seen = .presenting ∨
      ∃ answer, a.admitted m env d seen = .leaving answer := by
  cases d with
  | login =>
    simp only [admitted]
    split
    · exact .inr ⟨_, rfl⟩
    · exact .inl rfl
  | token =>
    simp only [admitted]
    split
    · exact .inl rfl
    · exact .inr ⟨_, rfl⟩

theorem Orderly.step (h : Orderly a) (hchange : Change m env a e b new) : Orderly b := by
  cases hchange with
  | nothing => exact h
  | begins d =>
    have hnew : ∀ (j : Nat) (c : Call), (a.calls.push ⟨d, .begun⟩)[j]? = some c →
        c.phase.inLine = true ∨ c.phase.holds = true → a.calls[j]? = some c := by
      intro j c hj hin
      rw [Array.getElem?_push] at hj
      split at hj
      · obtain rfl := Option.some.inj hj
        rcases hin with hin | hin <;> cases hin
      · exact hj
    refine ⟨h.nodup, fun j hj => ?_, fun j c hj hin => ?_, fun j c hj hin => ?_⟩
    · obtain ⟨c, hc, hin⟩ := h.phased j hj
      have hlt := (Array.getElem?_eq_some_iff.mp hc).1
      exact ⟨c, by rwa [Array.getElem?_push_lt hlt, ← Array.getElem?_eq_getElem hlt], hin⟩
    · exact h.lined j c (hnew j c hj (.inl hin)) hin
    · exact h.first j c (hnew j c hj (.inr hin)) hin
  | looks hc => exact h.enter hc rfl nofun
  | serves hc => exact h.enter hc rfl nofun
  | passes hc => exact h.enter hc rfl nofun
  | joins hc => exact h.join hc rfl _
  | enters hc hi =>
    rename_i i seen d
    refine h.enter hc ?_ fun _ => hi
    obtain hp | ⟨answer, hp⟩ := admitted_cases m env a d seen <;> rw [hp] <;> rfl
  | sends hc => exact h.enter hc rfl fun _ => h.first _ _ hc rfl
  | lacks hc => exact h.enter hc rfl fun _ => h.first _ _ hc rfl
  | hears reply hc => exact h.enter hc rfl fun _ => h.first _ _ hc rfl
  | records hc =>
    rename_i i d o
    have hline : (afterRecording d o).inLine = true := by cases d <;> rfl
    have h' : Orderly { a with
        standing := a.standing.record env.now o, recorded := a.recorded + 1 } :=
      ⟨h.nodup, h.phased, h.lined, h.first⟩
    exact h'.enter hc hline fun _ => h.first _ _ hc rfl
  | leaves hc => exact h.leave hc rfl rfl
  | turns hc => exact h.leave hc rfl rfl
  | reads hc => exact h.enter hc rfl nofun
  | yields hc => exact h.leave hc rfl rfl

/-- The line and the phases agree after any run. -/
theorem orderly_run (h : Orderly a) (m : Method) (events : List (Surroundings × Event)) :
    Orderly (a.run m events).1 :=
  run_induction (fun a _ => Orderly a) (fun _ _ _ _ _ hchange h => h.step hchange) h

/-- At most one call holds the guard. -/
theorem Orderly.eq_of_holds (h : Orderly a) {i j : Nat} {c c' : Call} (hi : a.calls[i]? = some c)
    (hj : a.calls[j]? = some c') (hc : c.phase.holds = true) (hc' : c'.phase.holds = true) :
    i = j :=
  Option.some.inj ((h.first i c hi hc).symm.trans (h.first j c' hj hc'))

/-- **At most one call waits for a reply.** -/
theorem Orderly.eq_of_pending (h : Orderly a) {i j : Nat} (hi : (a.pending? i).isSome = true)
    (hj : (a.pending? j).isSome = true) : i = j := by
  have holds : ∀ {i}, (a.pending? i).isSome = true →
      ∃ c, a.calls[i]? = some c ∧ c.phase.holds = true := by
    intro i hi
    rw [pending?] at hi
    split at hi
    · rename_i d r hc
      exact ⟨_, hc, rfl⟩
    · cases hi
  obtain ⟨c, hc, hholds⟩ := holds hi
  obtain ⟨c', hc', hholds'⟩ := holds hj
  exact h.eq_of_holds hc hc' hholds hholds'

/-! ### No call waits for ever -/

/-- Whether a call in this phase is over. -/
def Phase.isOver : Phase → Bool
  | .finished _ | .cancelled => true
  | _ => false

/-- **Where no call can take a step and none waits for a reply, every call is over.** -/
theorem Orderly.isOver_of_still (h : Orderly a) (hready : ∀ i, a.isReady i = false)
    (hpending : ∀ i, a.pending? i = none) {i : Nat} {c : Call} (hc : a.calls[i]? = some c) :
    c.phase.isOver = true := by
  -- neither can be said of who stands first in line, so nobody stands there
  have hnobody : a.line.head? = none := by
    rw [Option.eq_none_iff_forall_ne_some]
    intro j hj
    obtain ⟨⟨d, phase⟩, hcj, hin⟩ := h.phased j (List.mem_of_mem_head? hj)
    have hr := hready j
    have hp := hpending j
    cases phase <;> simp_all [isReady, pending?, Phase.inLine]
  have hr := hready i
  have hp := hpending i
  obtain ⟨d, phase⟩ := c
  cases phase with
  | waiting seen =>
    have hi := h.lined i _ hc rfl
    rw [List.head?_eq_none_iff.mp hnobody] at hi
    cases hi
  | finished _ | cancelled => rfl
  | _ => simp_all [isReady, pending?]

theorem foldl_stepsLeft_set (l : List Call) {i : Nat} {c : Call} (hc : l[i]? = some c)
    (phase : Phase) (k : Nat) :
    (l.set i { c with phase := phase }).foldl (fun n c => n + c.phase.stepsLeft) k
        + c.phase.stepsLeft
      = l.foldl (fun n c => n + c.phase.stepsLeft) k + phase.stepsLeft := by
  have hshift : ∀ (l : List Call) (k d : Nat),
      l.foldl (fun n c => n + c.phase.stepsLeft) (k + d)
        = l.foldl (fun n c => n + c.phase.stepsLeft) k + d := by
    intro l
    induction l with
    | nil => exact fun _ _ => rfl
    | cons c rest ih =>
      intro k d
      rw [List.foldl_cons, List.foldl_cons, ← ih, Nat.add_right_comm]
  induction l generalizing i k with
  | nil => simp at hc
  | cons v rest ih =>
    cases i with
    | zero =>
      obtain rfl : v = c := by simpa using hc
      rw [List.set_cons_zero, List.foldl_cons, List.foldl_cons, hshift, hshift]
      exact Nat.add_right_comm ..
    | succ i =>
      rw [List.set_cons_succ, List.foldl_cons, List.foldl_cons]
      exact ih (by simpa using hc) _

theorem stepsLeft_enter {i : Nat} {c : Call} (hc : a.calls[i]? = some c) (phase : Phase) :
    (a.enter i phase).stepsLeft + c.phase.stepsLeft = a.stepsLeft + phase.stepsLeft := by
  have hset : (a.enter i phase).calls.toList = a.calls.toList.set i { c with phase := phase } := by
    refine List.ext_getElem? fun j => ?_
    rw [Array.getElem?_toList, getElem?_calls_enter, List.getElem?_set, Array.getElem?_toList]
    have hlt := (Array.getElem?_eq_some_iff.mp hc).1
    by_cases hij : i = j
    · subst hij
      rw [if_pos rfl, if_pos rfl, hc, Array.length_toList, if_pos hlt]
      rfl
    · rw [if_neg hij, if_neg hij]
  rw [stepsLeft, stepsLeft, ← Array.foldl_toList, ← Array.foldl_toList, hset]
  exact foldl_stepsLeft_set _ (by rwa [Array.getElem?_toList]) phase 0

/-- An event that takes a call further uses up a step of it; a call that begins has eight. -/
theorem Change.stepsLeft_le (hchange : Change m env a e b new) :
    b.stepsLeft + (if a.isMovedBy e then 1 else 0) + 8 * a.calls.size
      ≤ a.stepsLeft + 8 * b.calls.size := by
  have goes : ∀ {i : Nat} {c : Call} {phase : Phase}, a.calls[i]? = some c →
      phase.stepsLeft + (if a.isMovedBy e then 1 else 0) ≤ c.phase.stepsLeft →
      b.calls = (a.enter i phase).calls →
      b.stepsLeft + (if a.isMovedBy e then 1 else 0) + 8 * a.calls.size
        ≤ a.stepsLeft + 8 * b.calls.size := by
    intro i c phase hc hless hb
    have hsum := stepsLeft_enter hc phase
    have hsteps : b.stepsLeft = (a.enter i phase).stepsLeft := by rw [stepsLeft, hb, stepsLeft]
    have hsize : b.calls.size = a.calls.size := by rw [hb, size_calls_enter]
    omega
  have less : ∀ {m n : Nat}, m < n → m + (if a.isMovedBy e then 1 else 0) ≤ n := by
    intro m n h
    split <;> omega
  cases hchange with
  | nothing he => simp [he]
  | begins d =>
    simp [stepsLeft, isMovedBy, Phase.stepsLeft]
    omega
  | enters hc hi =>
    rename_i i seen d
    refine goes hc (less ?_) rfl
    obtain hp | ⟨answer, hp⟩ := admitted_cases m env a d seen <;> rw [hp] <;> simp [Phase.stepsLeft]
  | records hc =>
    rename_i i d o
    exact goes hc (less (by cases d <;> simp [Phase.stepsLeft, afterRecording])) rfl
  | yields hc => exact goes hc (Nat.zero_le _) rfl
  | looks hc | serves hc | passes hc | joins hc | sends hc | lacks hc | hears _ hc | leaves hc
  | turns hc | reads hc => exact goes hc (less (by simp [Phase.stepsLeft])) rfl

/-- How many events of a run take a call further. -/
def moves (m : Method) (a : Authenticator) : List (Surroundings × Event) → Nat
  | [] => 0
  | (env, e) :: rest =>
    (if a.isMovedBy e then 1 else 0) + moves m (a.step m env e).1 rest

/-- **A run in which every event takes a call further comes to an end.** -/
theorem moves_le (m : Method) (a : Authenticator) (events : List (Surroundings × Event)) :
    moves m a events + (a.run m events).1.stepsLeft + 8 * a.calls.size
      ≤ a.stepsLeft + 8 * (a.run m events).1.calls.size := by
  induction events generalizing a with
  | nil => simp [moves, run]
  | cons x rest ih =>
    obtain ⟨env, e⟩ := x
    have hrest := ih (a.step m env e).1
    have hfirst := (change_step m env a e).stepsLeft_le
    simp only [moves, run_cons]
    omega

end Authenticator

end VaultTokens
