import VaultTokens.Proofs.GivenUpCalls

/-!
# Calls that leave no trace

A call that is given up before it has recorded anything might as well never have begun. To say so we
leave it out. The calls that began later move up by one number (`renumber`), and of what happened we
leave out whatever happened to the call itself (`eventsWithout`) and what led nowhere because the
call stood in the way. What is left leads to the same strategy but for that call (`Without`): with
the same standing, with the other calls in the same order in line and in the same phases, and after
the same notices.

A strategy without a call differs from the strategy itself in one step only: a call may find itself
first in line where the other one stands in its way. Such a step leads nowhere in the strategy
itself, so it is left out. Once the call is over it stands in nobody's way, and from then on nothing
but its own events has to be left out.

## Main results

* `Without.step`, `Without.own` — a step of another call and a step of the call itself
* `Without.exists_run` — how a strategy runs without a call that records nothing
* `Without.run` — how it runs without a call that is over
* `leavesNoTrace` — a call that is given up before it has recorded anything leaves no trace
-/

namespace VaultTokens

namespace Authenticator

variable {m : Method} {env : Surroundings} {a a' b : Authenticator} {e : Event}
  {past new : List Notice} {i j k : Nat} {c : Call} {phase : Phase}

/-! ### Numbers -/

/-- The number of another call when call `i` is left out. -/
def renumber (i j : Nat) : Nat := if j < i then j else j - 1

theorem renumber_inj (hj : j ≠ i) (hk : k ≠ i) : renumber i j = renumber i k ↔ j = k := by
  simp only [renumber]
  split <;> split <;> omega

/-- An event when call `i` is left out. -/
def Event.renumber (i : Nat) : Event → Event
  | .begin d => .begin d
  | .advance j => .advance (Authenticator.renumber i j)
  | .reply j r => .reply (Authenticator.renumber i j) r
  | .cancel j => .cancel (Authenticator.renumber i j)

/-- A notice when call `i` is left out. -/
def Notice.renumber (i : Nat) : Notice → Notice
  | .granted j => .granted (Authenticator.renumber i j)
  | .sent j r => .sent (Authenticator.renumber i j) r
  | .ended j o => .ended (Authenticator.renumber i j) o
  | .recorded j time o => .recorded (Authenticator.renumber i j) time o
  | .answered j answer => .answered (Authenticator.renumber i j) answer

/-- The events that are not about call `i`. -/
def eventsWithout (i : Nat) (events : List (Surroundings × Event)) :
    List (Surroundings × Event) :=
  (events.filter fun x => x.2.call? ≠ some i).map fun x => (x.1, x.2.renumber i)

/-- The notices that are not about call `i`. -/
def noticesWithout (i : Nat) (notices : List Notice) : List Notice :=
  (notices.filter fun n => n.call ≠ i).map (Notice.renumber i)

/-- A line without call `i`. -/
def lineWithout (i : Nat) (line : List Nat) : List Nat :=
  (line.filter (· ≠ i)).map (renumber i)

theorem noticesWithout_append (i : Nat) (past new : List Notice) :
    noticesWithout i (past ++ new) = noticesWithout i past ++ noticesWithout i new := by
  rw [noticesWithout, List.filter_append, List.map_append]
  rfl

theorem noticesWithout_singleton {n : Notice} (hn : n.call ≠ i) :
    noticesWithout i [n] = [n.renumber i] := by
  simp [noticesWithout, hn]

theorem noticesWithout_of_own (h : ∀ n ∈ new, n.call = i) : noticesWithout i new = [] := by
  rw [noticesWithout, List.filter_eq_nil_iff.mpr fun n hn => by simp [h n hn]]
  rfl

/-- Below the number of the call nothing changes. -/
theorem noticesWithout_of_lt (h : ∀ n ∈ new, n.call < i) : noticesWithout i new = new := by
  rw [noticesWithout, List.filter_eq_self.mpr fun n hn => by
    simpa using Nat.ne_of_lt (h n hn)]
  refine (List.map_congr_left fun n hn => ?_).trans (List.map_id new)
  have hlt := h n hn
  cases n <;> simp_all [Notice.renumber, renumber, Notice.call]

theorem eventsWithout_cons_of_ne {rest : List (Surroundings × Event)} (he : e.call? ≠ some i) :
    eventsWithout i ((env, e) :: rest) = (env, e.renumber i) :: eventsWithout i rest := by
  simp [eventsWithout, he]

theorem eventsWithout_cons_of_own {rest : List (Surroundings × Event)} (he : e.call? = some i) :
    eventsWithout i ((env, e) :: rest) = eventsWithout i rest := by
  simp [eventsWithout, he]

/-! ### The line -/

theorem lineWithout_cons_of_ne (hj : j ≠ i) (line : List Nat) :
    lineWithout i (j :: line) = renumber i j :: lineWithout i line := by
  simp [lineWithout, hj]

theorem lineWithout_cons_self (i : Nat) (line : List Nat) :
    lineWithout i (i :: line) = lineWithout i line := by
  simp [lineWithout]

theorem lineWithout_append_singleton (hj : j ≠ i) (line : List Nat) :
    lineWithout i (line ++ [j]) = lineWithout i line ++ [renumber i j] := by
  simp [lineWithout, hj]

theorem lineWithout_append_self (i : Nat) (line : List Nat) :
    lineWithout i (line ++ [i]) = lineWithout i line := by
  simp [lineWithout]

/-- The others stay in line when the call leaves it. -/
theorem lineWithout_erase_self (i : Nat) (line : List Nat) :
    lineWithout i (line.erase i) = lineWithout i line := by
  induction line with
  | nil => rfl
  | cons k line ih =>
    by_cases hk : k = i
    · subst hk
      rw [List.erase_cons_head, lineWithout_cons_self]
    · rw [List.erase_cons_tail (by simpa using hk), lineWithout_cons_of_ne hk,
        lineWithout_cons_of_ne hk, ih]

/-- Another one leaves both lines. -/
theorem lineWithout_erase (hj : j ≠ i) (line : List Nat) :
    lineWithout i (line.erase j) = (lineWithout i line).erase (renumber i j) := by
  induction line with
  | nil => rfl
  | cons k line ih =>
    by_cases hk : k = i
    · subst hk
      rw [List.erase_cons_tail (by simpa using Ne.symm hj), lineWithout_cons_self,
        lineWithout_cons_self, ih]
    · by_cases hkj : k = j
      · subst hkj
        rw [List.erase_cons_head, lineWithout_cons_of_ne hk, List.erase_cons_head]
      · rw [List.erase_cons_tail (by simpa using hkj), lineWithout_cons_of_ne hk,
          lineWithout_cons_of_ne hk, List.erase_cons_tail ?_, ih]
        simpa [renumber_inj hk hj] using hkj

/-- Who is first in line is first without another one. -/
theorem head?_lineWithout {line : List Nat} (hj : j ≠ i) (hhead : line.head? = some j) :
    (lineWithout i line).head? = some (renumber i j) := by
  obtain ⟨rest, rfl⟩ := List.head?_eq_some_iff.mp hhead
  rw [lineWithout_cons_of_ne hj]
  rfl

/-- Where the call does not stand in line, the same one is first. -/
theorem head?_lineWithout_iff {line : List Nat} (hi : i ∉ line) (hj : j ≠ i) :
    (lineWithout i line).head? = some (renumber i j) ↔ line.head? = some j := by
  cases line with
  | nil => exact ⟨fun h => (by cases h), fun h => (by cases h)⟩
  | cons k rest =>
    have hk : k ≠ i := fun hk => hi (hk ▸ List.mem_cons_self)
    rw [lineWithout_cons_of_ne hk, List.head?_cons, List.head?_cons, Option.some_inj,
      Option.some_inj, renumber_inj hk hj]

/-! ### A strategy without a call -/

/-- A strategy is another one without call `i`. -/
structure Without (i : Nat) (a b : Authenticator) : Prop where
  /-- The call is there. -/
  lt : i < a.calls.size
  /-- It alone is missing. -/
  size : b.calls.size + 1 = a.calls.size
  /-- The others are in the same phases. -/
  calls : ∀ j, j ≠ i → b.calls[renumber i j]? = a.calls[j]?
  /-- They stand in line in the same order. -/
  line : b.line = lineWithout i a.line
  /-- The standing is the same. -/
  standing : b.standing = a.standing
  /-- As many exchanges have been recorded. -/
  recorded : b.recorded = a.recorded

/-- Every other call has got the same answer. -/
theorem Without.answer?_eq (h : Without i a b) (hj : j ≠ i) :
    b.answer? (renumber i j) = a.answer? j := by
  rw [answer?, answer?, h.calls j hj]

theorem Without.enter (h : Without i a b) (hj : j ≠ i) (phase : Phase) :
    Without i (a.enter j phase) (b.enter (renumber i j) phase) := by
  refine ⟨by simpa using h.lt, by simpa using h.size, fun k hk => ?_, h.line, h.standing,
    h.recorded⟩
  rw [getElem?_calls_enter, getElem?_calls_enter, h.calls k hk]
  simp only [renumber_inj hj hk]

theorem Without.enter_self (h : Without i a b) (phase : Phase) :
    Without i (a.enter i phase) b := by
  refine ⟨by simpa using h.lt, by simpa using h.size, fun k hk => ?_, h.line, h.standing,
    h.recorded⟩
  rw [h.calls k hk, calls_enter_of_ne (Ne.symm hk)]

theorem Without.withLine (h : Without i a b) {line line' : List Nat}
    (hline : line' = lineWithout i line) :
    Without i { a with line } { b with line := line' } :=
  ⟨h.lt, h.size, h.calls, hline, h.standing, h.recorded⟩

theorem Without.record (h : Without i a b) (now : Timestamp) (o : Except Failure Issued) :
    Without i { a with standing := a.standing.record now o, recorded := a.recorded + 1 }
      { b with standing := b.standing.record now o, recorded := b.recorded + 1 } :=
  ⟨h.lt, h.size, h.calls, h.line, congrArg (Standing.record · now o) h.standing,
    congrArg (· + 1) h.recorded⟩

theorem Without.push (h : Without i a b) (c : Call) :
    Without i { a with calls := a.calls.push c } { b with calls := b.calls.push c } := by
  have hlt := h.lt
  have hsize := h.size
  refine ⟨by simpa using Nat.lt_succ_of_lt hlt, by simpa using hsize, fun j hj => ?_, h.line,
    h.standing, h.recorded⟩
  have hnew : renumber i j = b.calls.size ↔ j = a.calls.size := by
    simp only [renumber]
    split <;> omega
  rw [Array.getElem?_push, Array.getElem?_push, h.calls j hj]
  simp only [hnew]

/-- What a call does that has just got the guard is the same. -/
theorem Without.admitted_eq (h : Without i a b) (m : Method) (env : Surroundings) (d : Demand)
    (seen : Nat) : b.admitted m env d seen = a.admitted m env d seen := by
  simp only [admitted, succeededSince, h.standing, h.recorded]

/-- Another call takes its step, if it is first in line in both strategies or in none where it
matters. -/
theorem Without.advance (h : Without i a b) (hj : j ≠ i)
    (hhead : ∀ d seen, a.calls[j]? = some ⟨d, .waiting seen⟩ →
      (b.line.head? = some (renumber i j) ↔ a.line.head? = some j)) :
    Without i (a.advance m env j).1 (b.advance m env (renumber i j)).1 ∧
      (b.advance m env (renumber i j)).2 = noticesWithout i (a.advance m env j).2 := by
  have one : ∀ n : Notice, n.call = j → [n.renumber i] = noticesWithout i [n] := by
    rintro n rfl
    exact (noticesWithout_singleton hj).symm
  rw [Authenticator.advance, Authenticator.advance, h.calls j hj]
  cases hc : a.calls[j]? with
  | none => exact ⟨h, rfl⟩
  | some call =>
    obtain ⟨d, phase⟩ := call
    cases phase with
    | begun =>
      cases d with
      | login =>
        simp only [h.recorded]
        exact ⟨h.enter hj _, rfl⟩
      | token =>
        simp only [h.recorded, h.standing]
        split
        · exact ⟨h.enter hj _, one (.answered j _) rfl⟩
        · split
          · exact ⟨h.enter hj _, rfl⟩
          · exact ⟨h.enter hj _, rfl⟩
    | arriving seen =>
      refine ⟨(h.withLine ?_).enter hj _, rfl⟩
      rw [lineWithout_append_singleton hj, h.line]
    | waiting seen =>
      simp only [hhead d seen hc, h.admitted_eq]
      split
      · exact ⟨h.enter hj _, one (.granted j) rfl⟩
      · exact ⟨h, rfl⟩
    | presenting =>
      simp only
      split
      · exact ⟨h.enter hj _, one (.sent j _) rfl⟩
      · exact ⟨h.enter hj _, one (.ended j _) rfl⟩
    | recording o => exact ⟨(h.record env.now o).enter hj _, one (.recorded j env.now o) rfl⟩
    | leaving answer =>
      have hline : b.line.erase (renumber i j) = lineWithout i (a.line.erase j) := by
        rw [lineWithout_erase hj, h.line]
      have hleave := h.withLine hline
      cases answer with
      | none => exact ⟨hleave.enter hj _, rfl⟩
      | some answer => exact ⟨hleave.enter hj _, one (.answered j answer) rfl⟩
    | reading =>
      simp only [h.standing]
      exact ⟨h.enter hj _, one (.answered j _) rfl⟩
    | exchanging r | finished answer | cancelled => exact ⟨h, rfl⟩

/-- Another call is replied to. -/
theorem Without.receive (h : Without i a b) (hj : j ≠ i) (m : Method) (reply : Reply) :
    Without i (a.receive m j reply).1 (b.receive m (renumber i j) reply).1 ∧
      (b.receive m (renumber i j) reply).2 = noticesWithout i (a.receive m j reply).2 := by
  rw [Authenticator.receive, Authenticator.receive, h.calls j hj]
  split
  · exact ⟨h.enter hj _, (noticesWithout_singleton (n := .ended j _) hj).symm⟩
  · exact ⟨h, rfl⟩

/-- Another call is given up. -/
theorem Without.cancel (h : Without i a b) (hj : j ≠ i) :
    Without i (a.cancel j) (b.cancel (renumber i j)) := by
  rw [Authenticator.cancel, Authenticator.cancel, h.calls j hj]
  split
  · exact h
  · exact h
  · refine (h.withLine ?_).enter hj _
    rw [lineWithout_erase hj, h.line]

/-- **A step of another call** comes to the same without the call, unless it gets the guard because
the call does not stand in its way. -/
theorem Without.step (h : Without i a b) (he : e.call? ≠ some i) (m : Method) (env : Surroundings)
    (hhead : ∀ j d seen, e = .advance j → a.calls[j]? = some ⟨d, .waiting seen⟩ →
      (b.line.head? = some (renumber i j) ↔ a.line.head? = some j)) :
    Without i (a.step m env e).1 (b.step m env (e.renumber i)).1 ∧
      (b.step m env (e.renumber i)).2 = noticesWithout i (a.step m env e).2 := by
  have hne : ∀ {j}, e.call? = some j → j ≠ i := fun hj hji => he (hji ▸ hj)
  cases e with
  | begin d => exact ⟨h.push _, rfl⟩
  | advance j => exact h.advance (hne rfl) fun d seen => hhead j d seen rfl
  | reply j reply => exact h.receive (hne rfl) m reply
  | cancel j => exact ⟨h.cancel (hne rfl), rfl⟩

/-- **A step of the call itself** makes no difference to the others, unless it records. -/
theorem Without.own (h : Without i a b) (hchange : Change m env a e a' new)
    (he : e.call? = some i) (hnew : recordings new = []) :
    Without i a' b ∧ noticesWithout i new = [] := by
  have hnotices : noticesWithout i new = [] := noticesWithout_of_own fun n hn =>
    Option.some.inj ((hchange.call?_eq_of_mem hn).symm.trans he)
  refine ⟨?_, hnotices⟩
  have lined : ∀ {line : List Nat}, lineWithout i line = lineWithout i a.line →
      Without i { a with line } b := fun hline =>
    h.withLine (h.line.trans hline.symm)
  cases hchange with
  | nothing => exact h
  | begins => cases he
  | records => cases hnew
  | joins =>
    obtain rfl := Option.some.inj he
    exact (lined (lineWithout_append_self _ _)).enter_self _
  | leaves | turns | yields =>
    obtain rfl := Option.some.inj he
    exact (lined (lineWithout_erase_self _ _)).enter_self _
  | looks | serves | passes | enters | sends | lacks | hears | reads =>
    obtain rfl := Option.some.inj he
    exact h.enter_self _

/-! ### Runs without a call -/

/-- A call that waits and takes a step was first in line. -/
theorem head?_of_moved {d : Demand} {seen : Nat} (hc : a.calls[j]? = some ⟨d, .waiting seen⟩)
    (hmoved : a.step m env (.advance j) ≠ (a, [])) : a.line.head? = some j := by
  refine Classical.byContradiction fun hhead => hmoved ?_
  rw [Authenticator.step, Authenticator.advance, hc]
  simp only [hhead, if_false]

/-- **How a strategy runs without a call that records nothing**: what happens to the others comes to
the same, if what led nowhere is left out. -/
theorem Without.exists_run (h : Without i a b) (m : Method) {events : List (Surroundings × Event)}
    (hnew : ∀ time o, (i, time, o) ∉ recordings (a.run m events).2) :
    ∃ kept, kept.Sublist (eventsWithout i events) ∧
      Without i (a.run m events).1 (b.run m kept).1 ∧
        (b.run m kept).2 = noticesWithout i (a.run m events).2 := by
  induction events generalizing a b with
  | nil => exact ⟨[], .slnil, h, rfl⟩
  | cons x rest ih =>
    obtain ⟨env, e⟩ := x
    rw [run_cons, recordings_append] at hnew
    have hrest : ∀ time o, (i, time, o) ∉ recordings ((a.step m env e).1.run m rest).2 :=
      fun time o hmem => hnew time o (List.mem_append_right _ hmem)
    rw [run_cons, noticesWithout_append]
    by_cases he : e.call? = some i
    · have hchange := change_step m env a e
      have hnone : recordings (a.step m env e).2 = [] := by
        rcases hchange.recordings_new with hnone | ⟨j, d, o, -, hone⟩
        · exact hnone
        · refine absurd ?_ (hnew env.now o)
          have hmem : (j, env.now, o) ∈ recordings (a.step m env e).2 := by
            rw [hone]
            exact List.mem_singleton_self _
          obtain rfl : j = i := by
            have hnotice := mem_recordings.mp hmem
            exact Option.some.inj ((hchange.call?_eq_of_mem hnotice).symm.trans he)
          exact List.mem_append_left _ hmem
      obtain ⟨hown, hsilent⟩ := h.own hchange he hnone
      obtain ⟨kept, hkept, hwithout, hnotices⟩ := ih hown hrest
      refine ⟨kept, ?_, hwithout, ?_⟩
      · rwa [eventsWithout_cons_of_own he]
      · rw [hsilent, hnotices]
        rfl
    · rw [eventsWithout_cons_of_ne he]
      by_cases hmoved : a.step m env e = (a, [])
      · rw [hmoved] at hrest ⊢
        obtain ⟨kept, hkept, hwithout, hnotices⟩ := ih h hrest
        exact ⟨kept, hkept.cons _, hwithout, hnotices⟩
      · obtain ⟨hstep, hsame⟩ := h.step he m env fun j d seen hj hc => by
          subst hj
          have hhead := head?_of_moved hc hmoved
          have hji : j ≠ i := fun hji => he (congrArg some hji)
          exact ⟨fun _ => hhead, fun _ => h.line ▸ head?_lineWithout hji hhead⟩
        obtain ⟨kept, hkept, hwithout, hnotices⟩ := ih hstep hrest
        refine ⟨(env, e.renumber i) :: kept, hkept.cons_cons _, hwithout, ?_⟩
        rw [run_cons, hsame, hnotices]

/-- **How a strategy runs without a call that is over**: nothing but what happens to that call is
left out. -/
theorem Without.run (h : Without i a b) (horderly : Orderly a) (hc : a.calls[i]? = some c)
    (hover : c.phase.isOver = true) (m : Method) (events : List (Surroundings × Event)) :
    Without i (a.run m events).1 (b.run m (eventsWithout i events)).1 ∧
      (b.run m (eventsWithout i events)).2 = noticesWithout i (a.run m events).2 := by
  induction events generalizing a b c with
  | nil => exact ⟨h, rfl⟩
  | cons x rest ih =>
    obtain ⟨env, e⟩ := x
    have hchange := change_step m env a e
    obtain ⟨⟨c', hc', hover'⟩, hsilent⟩ := hchange.over hc hover
    have horderly' := horderly.step hchange
    rw [run_cons, noticesWithout_append]
    by_cases he : e.call? = some i
    · have hnone : (a.step m env e).2 = [] := List.eq_nil_iff_forall_not_mem.mpr fun n hn =>
        hsilent n hn (Option.some.inj ((hchange.call?_eq_of_mem hn).symm.trans he))
      obtain ⟨hown, -⟩ := h.own hchange he (by rw [hnone]; rfl)
      rw [eventsWithout_cons_of_own he, hnone]
      exact ih hown horderly' hc' hover'
    · have hi := horderly.not_mem_of_isOver hc hover
      obtain ⟨hstep, hsame⟩ := h.step he m env fun j d seen hj _ => by
        subst hj
        rw [h.line]
        exact head?_lineWithout_iff hi fun hji => he (congrArg some hji)
      obtain ⟨hwithout, hnotices⟩ := ih hstep horderly' hc' hover'
      rw [eventsWithout_cons_of_ne he, run_cons, hsame, hnotices]
      exact ⟨hwithout, rfl⟩

/-- A call that is given up before it has recorded anything: what happens before that comes to the
same without the call, and so does what happens after it. -/
theorem Without.exists_kept (h : Without i a b) (horderly : Orderly a) (m : Method)
    {events : List (Surroundings × Event)}
    (hnew : ∀ time o, (i, time, o) ∉ recordings (a.run m events).2) (env : Surroundings) :
    ∃ kept, kept.Sublist (eventsWithout i events) ∧
      ∀ later, Without i (a.run m (events ++ (env, .cancel i) :: later)).1
          (b.run m (kept ++ eventsWithout i later)).1 ∧
        (b.run m (kept ++ eventsWithout i later)).2
          = noticesWithout i (a.run m (events ++ (env, .cancel i) :: later)).2 := by
  obtain ⟨kept, hkept, hwithout, hnotices⟩ := h.exists_run m hnew
  refine ⟨kept, hkept, fun later => ?_⟩
  have hchange := change_step m env (a.run m events).1 (.cancel i)
  obtain ⟨c, hc, hover⟩ := isOver_cancel (Array.getElem?_eq_getElem hwithout.lt)
  obtain ⟨hlater, hsame⟩ := (hwithout.own hchange rfl rfl).1.run
    ((orderly_run horderly m events).step hchange) hc hover m later
  rw [run_append, run_append, run_cons]
  refine ⟨hlater, ?_⟩
  rw [hnotices, hsame, noticesWithout_append]
  rfl

/-! ### From the beginning -/

/-- A call is missing as soon as it begins. -/
theorem Orderly.without_begin (h : Orderly a) (d : Demand) :
    Without a.calls.size { a with calls := a.calls.push ⟨d, .begun⟩ } a := by
  have hlt : ∀ j ∈ a.line, j < a.calls.size := by
    intro j hj
    obtain ⟨c, hc, -⟩ := h.phased j hj
    exact (Array.getElem?_eq_some_iff.mp hc).1
  refine ⟨by simp, by simp, fun j hj => ?_, ?_, rfl, rfl⟩
  · rw [Array.getElem?_push, if_neg hj, renumber]
    split
    · rfl
    · rw [Array.getElem?_eq_none (by omega), Array.getElem?_eq_none (by omega)]
  · rw [lineWithout, List.filter_eq_self.mpr fun j hj => by simpa using Nat.ne_of_lt (hlt j hj)]
    refine ((List.map_congr_left fun j hj => ?_).trans (List.map_id a.line)).symm
    rw [renumber, if_pos (hlt j hj)]
    rfl

/-- Notices are about calls that have begun. -/
theorem lt_size_of_mem (m : Method) (events : List (Surroundings × Event)) :
    ∀ n ∈ (initial.run m events).2, n.call < (initial.run m events).1.calls.size := by
  refine run_induction (fun b past => ∀ n ∈ past, n.call < b.calls.size) ?_
    (List.forall_mem_nil _)
  rintro env e - a b past new hchange h n hn
  have exists_call : ∀ {i : Nat} {c : Call}, a.calls[i]? = some c → i < b.calls.size := by
    intro i c hc
    obtain ⟨phase, hb⟩ := hchange.exists_call hc
    exact (Array.getElem?_eq_some_iff.mp hb).1
  rcases List.mem_append.mp hn with hn | hn
  · exact exists_call (Array.getElem?_eq_getElem (h n hn))
  · cases hchange with
    | nothing | begins | looks | passes | joins | turns | yields => cases hn
    | serves hc | enters hc | sends hc | lacks hc | hears _ hc | records hc | leaves hc
    | reads hc =>
      rw [List.mem_singleton.mp hn]
      exact exists_call hc

/-- Every call has begun at some event. -/
theorem exists_begin_of_lt (m : Method) (events : List (Surroundings × Event))
    (ha : a.calls.size ≤ i) (hi : i < (a.run m events).1.calls.size) :
    ∃ before env d after, events = before ++ (env, .begin d) :: after ∧
      (a.run m before).1.calls.size = i := by
  induction events generalizing a with
  | nil => exact absurd hi (Nat.not_lt_of_le ha)
  | cons x rest ih =>
    obtain ⟨env, e⟩ := x
    have hsize := size_calls_step m env a e
    by_cases hle : (a.step m env e).1.calls.size ≤ i
    · obtain ⟨before, env', d, after, rfl, hbefore⟩ := ih hle hi
      exact ⟨(env, e) :: before, env', d, after, rfl, hbefore⟩
    · cases e with
      | begin d =>
        have hmore : _ = a.calls.size + 1 := hsize
        exact ⟨[], env, d, rest, rfl, show a.calls.size = i by omega⟩
      | advance | reply | cancel =>
        have hsame : _ = a.calls.size + 0 := hsize
        omega

/-- A call that is given up after some events leaves no trace: whatever happens then, all of it
comes to the same as if the call had never begun. Of what happened between its beginning and its end
the same is left but for its own events and others that led nowhere; of what happens from then on
nothing but its own events, of which there is nothing to be heard. -/
def LeavesNoTrace (m : Method) (events : List (Surroundings × Event)) (env : Surroundings)
    (i : Nat) : Prop :=
  ∃ before env' d between kept, events = before ++ (env', .begin d) :: between ∧
    (initial.run m before).1.calls.size = i ∧ kept.Sublist (eventsWithout i between) ∧
      ∀ later, Without i (initial.run m (events ++ (env, .cancel i) :: later)).1
          (initial.run m (before ++ (kept ++ eventsWithout i later))).1 ∧
        (initial.run m (before ++ (kept ++ eventsWithout i later))).2
          = noticesWithout i (initial.run m (events ++ (env, .cancel i) :: later)).2

/-- **A call that is given up before it has recorded anything leaves no trace.** -/
theorem leavesNoTrace (m : Method) {events : List (Surroundings × Event)}
    (hi : i < (initial.run m events).1.calls.size)
    (hnew : ∀ time o, (i, time, o) ∉ recordings (initial.run m events).2) (env : Surroundings) :
    LeavesNoTrace m events env i := by
  obtain ⟨before, env', d, between, rfl, hsize⟩ := exists_begin_of_lt m events (Nat.zero_le i) hi
  have horderly := orderly_run orderly_initial m before
  have hbegin := horderly.without_begin d
  rw [hsize] at hbegin
  have hbefore : noticesWithout i (initial.run m before).2 = (initial.run m before).2 :=
    noticesWithout_of_lt fun n hn => hsize ▸ lt_size_of_mem m before n hn
  have hbetween : ∀ time o, (i, time, o) ∉
      recordings (((initial.run m before).1.step m env' (.begin d)).1.run m between).2 := by
    intro time o hmem
    refine hnew time o ?_
    rw [run_append, recordings_append]
    exact List.mem_append_right _ hmem
  obtain ⟨kept, hkept, hlater⟩ := hbegin.exists_kept
    (horderly.step (change_step m env' _ (.begin d))) m hbetween env
  refine ⟨before, env', d, between, kept, rfl, hsize, hkept, fun later => ?_⟩
  obtain ⟨hwithout, hnotices⟩ := hlater later
  rw [List.append_assoc, run_append, run_append m initial before (kept ++ _)]
  refine ⟨hwithout, ?_⟩
  rw [noticesWithout_append, hbefore, hnotices]
  rfl

end Authenticator

end VaultTokens
