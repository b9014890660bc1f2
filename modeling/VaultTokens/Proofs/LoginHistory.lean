import VaultTokens.Proofs.LoginGuard

/-!
# The standing is the history of the exchanges

Calls of both kinds, under way in any number and in any order of their steps, write into one
standing. This file says what it holds at any moment: the lease of the last exchange that succeeded,
how many have failed since, and what the last of these failed with. The history is the list of the
recorded exchanges in the order in which their calls held the guard, and what is recorded of an
exchange is what came of it.

## Reading a history

A history is kept newest first, so that its last success (`lastSuccess`) and the failures since then
(`failuresSince`) are found from its head.

## Main results

* `Standing.Reflects.record` — recording an exchange puts it at the head of the history
* `inTurn_run` — what is recorded is recorded in the order of the guard
* `concluded_run` — what is recorded of an exchange is what came of it
* `standing_history` — all of this at any moment of any run
-/

namespace VaultTokens

/-! ### Histories -/

namespace Standing

variable {s : Standing} {history : List (Timestamp × Except Failure Issued)}

/-- The last success of a history, newest first, and when it was recorded. -/
def lastSuccess : List (Timestamp × Except Failure Issued) → Option (Timestamp × Issued)
  | [] => none
  | (time, .ok issued) :: _ => some (time, issued)
  | (_, .error _) :: older => lastSuccess older

/-- The failures of a history since its last success, newest first. -/
def failuresSince : List (Timestamp × Except Failure Issued) → List Failure
  | [] => []
  | (_, .ok _) :: _ => []
  | (_, .error f) :: older => f :: failuresSince older

/-- A standing is what a history, newest first, leaves behind. -/
structure Reflects (s : Standing) (history : List (Timestamp × Except Failure Issued)) : Prop where
  /-- The lease is that of the last success, from the time it was recorded on. -/
  lease : s.lease = (lastSuccess history).map fun (time, issued) => Lease.grant issued time
  /-- The failures since then are counted as far as a word goes. -/
  failures : s.failures.toNat = min (failuresSince history).length 4294967295
  /-- The message is that of the latest of these failures. -/
  lastError : s.lastError = (failuresSince history).head?.map Failure.message

theorem reflects_initial : initial.Reflects [] := ⟨rfl, rfl, rfl⟩

/-- Recording an exchange puts it at the head of the history. -/
theorem Reflects.record (h : s.Reflects history) (time : Timestamp)
    (outcome : Except Failure Issued) :
    (s.record time outcome).Reflects ((time, outcome) :: history) := by
  cases outcome with
  | ok issued => exact ⟨rfl, rfl, rfl⟩
  | error f =>
    refine ⟨h.lease, ?_, rfl⟩
    rw [record_error, toNat_countUp, h.failures, failuresSince, List.length_cons]
    omega

theorem Reflects.foldl (h : s.Reflects history)
    (recorded : List (Timestamp × Except Failure Issued)) :
    (recorded.foldl (fun s o => s.record o.1 o.2) s).Reflects (recorded.reverse ++ history) := by
  induction recorded generalizing s history with
  | nil => exact h
  | cons o rest ih =>
    rw [List.foldl_cons, List.reverse_cons, List.append_assoc]
    exact ih (h.record o.1 o.2)

end Standing

namespace Authenticator

variable {m : Method} {env : Surroundings} {a b : Authenticator} {e : Event}
  {past new : List Notice} {i : Nat} {c : Call} {phase : Phase}

/-! ### What notices tell -/

/-- The calls that got the guard, in order. -/
def grants (notices : List Notice) : List Nat :=
  notices.filterMap fun n =>
    match n with
    | .granted i => some i
    | _ => none

/-- What came of the exchanges, in the order in which they were over. -/
def endings (notices : List Notice) : List (Nat × Except Failure Issued) :=
  notices.filterMap fun n =>
    match n with
    | .ended i outcome => some (i, outcome)
    | _ => none

/-- What was recorded, by which call and when, in order. -/
def recordings (notices : List Notice) : List (Nat × Timestamp × Except Failure Issued) :=
  notices.filterMap fun n =>
    match n with
    | .recorded i time outcome => some (i, time, outcome)
    | _ => none

@[simp]
theorem grants_append (past new : List Notice) : grants (past ++ new) = grants past ++ grants new :=
  List.filterMap_append ..

@[simp]
theorem endings_append (past new : List Notice) :
    endings (past ++ new) = endings past ++ endings new :=
  List.filterMap_append ..

@[simp]
theorem recordings_append (past new : List Notice) :
    recordings (past ++ new) = recordings past ++ recordings new :=
  List.filterMap_append ..

theorem outcomes_eq_map_recordings (notices : List Notice) :
    outcomes notices = (recordings notices).map Prod.snd := by
  rw [outcomes, recordings, List.map_filterMap]
  congr 1
  funext n
  cases n <;> rfl

/-! ### The order of the guard -/

/-- Whether a call in this phase has got the guard, now or before. A call that was given up counts,
be it before it got that far. -/
def Phase.isPast : Phase → Bool
  | .begun | .arriving _ | .waiting _ => false
  | _ => true

/-- Whether a call in this phase has an exchange that is not recorded yet. -/
def Phase.isOpen : Phase → Bool
  | .presenting | .exchanging _ | .recording _ => true
  | _ => false

/-- The guard is given to no call twice, and exchanges are recorded in the order in which it is
given. -/
structure InTurn (calls : Array Call) (grants recorders : List Nat) : Prop where
  /-- No call gets the guard twice. -/
  nodup : grants.Nodup
  /-- Who got the guard does not stand in line for it again. -/
  past : ∀ i ∈ grants, ∃ c, calls[i]? = some c ∧ c.phase.isPast = true
  /-- Exchanges are recorded in the order of the guard, each once. -/
  sub : recorders.Sublist grants
  /-- Who holds the guard got it last, and has recorded nothing as long as its exchange is open. -/
  last : ∀ i c, calls[i]? = some c → c.phase.holds = true →
    ∃ before, grants = before ++ [i] ∧ (c.phase.isOpen = true → recorders.Sublist before)

theorem inTurn_initial : InTurn initial.calls [] [] := by
  refine ⟨List.nodup_nil, ?_, .slnil, ?_⟩ <;> simp [initial]

theorem InTurn.push {grants recorders : List Nat} (h : InTurn a.calls grants recorders)
    (d : Demand) : InTurn (a.calls.push ⟨d, .begun⟩) grants recorders := by
  refine ⟨h.nodup, fun j hj => ?_, h.sub, fun j c hj hholds => ?_⟩
  · obtain ⟨c, hc, hpast⟩ := h.past j hj
    have hlt := (Array.getElem?_eq_some_iff.mp hc).1
    exact ⟨c, by rwa [Array.getElem?_push_lt hlt, ← Array.getElem?_eq_getElem hlt], hpast⟩
  · rw [Array.getElem?_push] at hj
    split at hj
    · obtain rfl := Option.some.inj hj
      cases hholds
    · exact h.last j c hj hholds

/-- A call that goes on without getting the guard or recording anything. -/
theorem InTurn.enter {grants recorders : List Nat} (h : InTurn a.calls grants recorders)
    (hc : a.calls[i]? = some c) (hpast : c.phase.isPast = true → phase.isPast = true)
    (hholds : phase.holds = true → c.phase.holds = true)
    (hopen : phase.isOpen = true → c.phase.isOpen = true) :
    InTurn (a.enter i phase).calls grants recorders := by
  refine ⟨h.nodup, fun j hj => ?_, h.sub, fun j c' hj hin => ?_⟩
  · obtain ⟨c', hc', hp⟩ := h.past j hj
    by_cases hij : i = j
    · subst hij
      obtain rfl := Option.some.inj (hc.symm.trans hc')
      exact ⟨_, calls_enter_self hc phase, hpast hp⟩
    · exact ⟨c', by rwa [calls_enter_of_ne hij], hp⟩
  · obtain ⟨rfl, rfl⟩ | ⟨-, hj⟩ := calls_enter_cases hc hj
    · obtain ⟨before, hbefore, hsub⟩ := h.last j c hc (hholds hin)
      exact ⟨before, hbefore, fun ho => hsub (hopen ho)⟩
    · exact h.last j c' hj hin

/-- The first in line gets the guard. -/
theorem InTurn.grant {grants recorders : List Nat} (h : InTurn a.calls grants recorders)
    (hline : Orderly a) (hc : a.calls[i]? = some c) (hout : c.phase.isPast = false)
    (hi : a.line.head? = some i) (hpast : phase.isPast = true) :
    InTurn (a.enter i phase).calls (grants ++ [i]) recorders := by
  have hnew : i ∉ grants := by
    intro hmem
    obtain ⟨c', hc', hp⟩ := h.past i hmem
    obtain rfl := Option.some.inj (hc.symm.trans hc')
    exact absurd (hout.symm.trans hp) nofun
  refine ⟨?_, fun j hj => ?_, h.sub.trans (List.sublist_append_left ..), fun j c' hj hin => ?_⟩
  · exact List.nodup_append.mpr ⟨h.nodup, List.pairwise_singleton _ i, by
      rintro j hj k hk rfl
      rw [List.mem_singleton.mp hk] at hj
      exact hnew hj⟩
  · by_cases hij : i = j
    · subst hij
      exact ⟨_, calls_enter_self hc phase, hpast⟩
    · rcases List.mem_append.mp hj with hj | hj
      · obtain ⟨c', hc', hp⟩ := h.past j hj
        exact ⟨c', by rwa [calls_enter_of_ne hij], hp⟩
      · exact absurd (List.mem_singleton.mp hj).symm hij
  · obtain ⟨rfl, rfl⟩ | ⟨hji, hj⟩ := calls_enter_cases hc hj
    · exact ⟨grants, rfl, fun _ => h.sub⟩
    · exact absurd (Option.some.inj ((hline.first j c' hj hin).symm.trans hi)) hji

/-- Who holds the guard records its exchange. -/
theorem InTurn.complete {grants recorders : List Nat} (h : InTurn a.calls grants recorders)
    (hline : Orderly a) (hc : a.calls[i]? = some c) (hholds : c.phase.holds = true)
    (hopen : c.phase.isOpen = true) (hpast : phase.isPast = true) (hclosed : phase.isOpen = false) :
    InTurn (a.enter i phase).calls grants (recorders ++ [i]) := by
  obtain ⟨before, hbefore, hsub⟩ := h.last i c hc hholds
  refine ⟨h.nodup, fun j hj => ?_, ?_, fun j c' hj hin => ?_⟩
  · by_cases hij : i = j
    · subst hij
      exact ⟨_, calls_enter_self hc phase, hpast⟩
    · obtain ⟨c', hc', hp⟩ := h.past j hj
      exact ⟨c', by rwa [calls_enter_of_ne hij], hp⟩
  · rw [hbefore]
    exact (hsub hopen).append_right [i]
  · obtain ⟨rfl, rfl⟩ | ⟨hji, hj⟩ := calls_enter_cases hc hj
    · exact ⟨before, hbefore, fun ho => absurd (hclosed.symm.trans ho) nofun⟩
    · exact absurd (hline.eq_of_holds hj hc hin hholds) hji

/-- What the notices tell so far fits the calls. -/
theorem InTurn.step (hline : Orderly a)
    (h : InTurn a.calls (grants past) ((recordings past).map Prod.fst))
    (hchange : Change m env a e b new) :
    InTurn b.calls (grants (past ++ new)) ((recordings (past ++ new)).map Prod.fst) := by
  have quiet : ∀ {calls}, grants new = [] → recordings new = [] →
      InTurn calls (grants past) ((recordings past).map Prod.fst) →
      InTurn calls (grants (past ++ new)) ((recordings (past ++ new)).map Prod.fst) := by
    intro calls hgrants hrecordings h
    rwa [grants_append, recordings_append, hgrants, hrecordings, List.append_nil, List.append_nil]
  cases hchange with
  | nothing => exact quiet rfl rfl h
  | begins d => exact quiet rfl rfl (h.push d)
  | enters hc hi =>
    rename_i j seen d
    have hpast : (a.admitted m env d seen).isPast = true := by
      obtain hp | ⟨answer, hp⟩ := admitted_cases m env a d seen <;> rw [hp] <;> rfl
    have hdone := h.grant hline hc rfl hi hpast
    rw [grants_append, recordings_append]
    rwa [show recordings [Notice.granted j] = [] from rfl, List.append_nil]
  | records hc =>
    rename_i j d o
    have hafter : (afterRecording d o).isPast = true ∧ (afterRecording d o).isOpen = false := by
      cases d <;> exact ⟨rfl, rfl⟩
    have hdone := h.complete hline hc rfl rfl hafter.1 hafter.2
    rw [grants_append, recordings_append, List.map_append]
    rwa [show grants [Notice.recorded j env.now o] = [] from rfl, List.append_nil]
  | looks hc | serves hc | passes hc => exact quiet rfl rfl (h.enter hc nofun nofun nofun)
  | joins hc => exact quiet rfl rfl (h.enter hc nofun nofun nofun)
  | sends hc | lacks hc | hears reply hc =>
    exact quiet rfl rfl (h.enter hc (fun _ => rfl) (fun _ => rfl) fun _ => rfl)
  | leaves hc | turns hc | reads hc | yields hc =>
    exact quiet rfl rfl (h.enter hc (fun _ => rfl) nofun nofun)

/-- **What is recorded is recorded in the order of the guard.** -/
theorem inTurn_run (m : Method) (events : List (Surroundings × Event)) :
    InTurn (initial.run m events).1.calls (grants (initial.run m events).2)
      ((recordings (initial.run m events).2).map Prod.fst) := by
  exact (run_induction
    (fun a past => Orderly a ∧ InTurn a.calls (grants past) ((recordings past).map Prod.fst))
    (fun _ _ _ _ _ hchange h => ⟨h.1.step hchange, h.2.step h.1 hchange⟩)
    ⟨orderly_initial, inTurn_initial⟩).2

/-! ### What came of the exchanges -/

/-- What is recorded of an exchange is what came of it, and only a call that was given up keeps it
to itself. -/
structure Concluded (calls : Array Call)
    (endings recordings : List (Nat × Except Failure Issued)) : Prop where
  /-- What is recorded came of an exchange, in the same order and once for each. -/
  sub : recordings.Sublist endings
  /-- Who is about to record has the exchange that was over last. -/
  last : ∀ i d o, calls[i]? = some ⟨d, .recording o⟩ →
    ∃ before, endings = before ++ [(i, o)] ∧ recordings.Sublist before
  /-- What came of an exchange is recorded, will be next, or is lost with its call. -/
  kept : ∀ i o, (i, o) ∈ endings → (i, o) ∈ recordings ∨
    ∃ c, calls[i]? = some c ∧ (c.phase = .recording o ∨ c.phase = .cancelled)

theorem concluded_initial : Concluded initial.calls [] [] := by
  refine ⟨.slnil, ?_, ?_⟩ <;> simp [initial]

variable {ended recorded : List (Nat × Except Failure Issued)}

theorem Concluded.push (h : Concluded a.calls ended recorded) (d : Demand) :
    Concluded (a.calls.push ⟨d, .begun⟩) ended recorded := by
  refine ⟨h.sub, fun j d' o hj => ?_, fun j o hj => ?_⟩
  · rw [Array.getElem?_push] at hj
    split at hj
    · cases hj
    · exact h.last j d' o hj
  · refine (h.kept j o hj).imp_right ?_
    rintro ⟨c, hc, hp⟩
    have hlt := (Array.getElem?_eq_some_iff.mp hc).1
    exact ⟨c, by rwa [Array.getElem?_push_lt hlt, ← Array.getElem?_eq_getElem hlt], hp⟩

/-- A call that goes on with no exchange that is over, unless it is given up. -/
theorem Concluded.enter (h : Concluded a.calls ended recorded) (hc : a.calls[i]? = some c)
    (hfrom : phase = .cancelled ∨ c.phase ≠ .cancelled ∧ ∀ o, c.phase ≠ .recording o)
    (hto : ∀ o, phase ≠ .recording o) : Concluded (a.enter i phase).calls ended recorded := by
  refine ⟨h.sub, fun j d o hj => ?_, fun j o hj => ?_⟩
  · obtain ⟨-, hp⟩ | ⟨-, hj⟩ := calls_enter_cases hc hj
    · exact absurd (congrArg Call.phase hp).symm (hto o)
    · exact h.last j d o hj
  · refine (h.kept j o hj).imp_right ?_
    rintro ⟨c', hc', hp⟩
    by_cases hij : i = j
    · subst hij
      obtain rfl := Option.some.inj (hc.symm.trans hc')
      refine ⟨_, calls_enter_self hc phase, .inr ?_⟩
      rcases hfrom with hfrom | ⟨hcancelled, hrecording⟩
      · exact hfrom
      · exact absurd hp (not_or.mpr ⟨hrecording o, hcancelled⟩)
    · exact ⟨c', by rwa [calls_enter_of_ne hij], hp⟩

/-- The exchange of who holds the guard is over. -/
theorem Concluded.conclude (h : Concluded a.calls ended recorded) (hline : Orderly a)
    (hc : a.calls[i]? = some c) (hholds : c.phase.holds = true)
    (hopen : ∀ o, c.phase ≠ .recording o) (outcome : Except Failure Issued) :
    Concluded (a.enter i (.recording outcome)).calls (ended ++ [(i, outcome)]) recorded := by
  have hlive : c.phase ≠ .cancelled := fun hp => by rw [hp] at hholds; cases hholds
  refine ⟨h.sub.trans (List.sublist_append_left ..), fun j d o hj => ?_, fun j o hj => ?_⟩
  · obtain ⟨rfl, hp⟩ | ⟨hji, hj⟩ := calls_enter_cases hc hj
    · obtain rfl := Phase.recording.inj (congrArg Call.phase hp)
      exact ⟨ended, rfl, h.sub⟩
    · exact absurd (hline.eq_of_holds hj hc rfl hholds) hji
  · rcases List.mem_append.mp hj with hj | hj
    · refine (h.kept j o hj).imp_right ?_
      rintro ⟨c', hc', hp⟩
      by_cases hij : i = j
      · subst hij
        obtain rfl := Option.some.inj (hc.symm.trans hc')
        exact absurd hp (not_or.mpr ⟨hopen o, hlive⟩)
      · exact ⟨c', by rwa [calls_enter_of_ne hij], hp⟩
    · obtain ⟨rfl, rfl⟩ := Prod.mk.inj (List.mem_singleton.mp hj)
      exact .inr ⟨_, calls_enter_self hc _, .inl rfl⟩

/-- What came of an exchange is recorded. -/
theorem Concluded.complete (h : Concluded a.calls ended recorded) (hline : Orderly a) {d : Demand}
    {o : Except Failure Issued} (hc : a.calls[i]? = some ⟨d, .recording o⟩)
    (hto : ∀ o, phase ≠ .recording o) :
    Concluded (a.enter i phase).calls ended (recorded ++ [(i, o)]) := by
  obtain ⟨before, hbefore, hsub⟩ := h.last i d o hc
  refine ⟨?_, fun j d' o' hj => ?_, fun j o' hj => ?_⟩
  · rw [hbefore]
    exact hsub.append_right [(i, o)]
  · obtain ⟨-, hp⟩ | ⟨hji, hj⟩ := calls_enter_cases hc hj
    · exact absurd (congrArg Call.phase hp).symm (hto o')
    · exact absurd (hline.eq_of_holds hj hc rfl rfl) hji
  · rcases h.kept j o' hj with hj | ⟨c', hc', hp⟩
    · exact .inl (List.mem_append_left _ hj)
    · by_cases hij : i = j
      · subst hij
        obtain rfl := Option.some.inj (hc.symm.trans hc')
        rcases hp with hp | hp
        · obtain rfl := Phase.recording.inj hp
          exact .inl (List.mem_append_right _ (List.mem_singleton_self _))
        · cases hp
      · exact .inr ⟨c', by rwa [calls_enter_of_ne hij], hp⟩

theorem Concluded.step (hline : Orderly a)
    (h : Concluded a.calls (endings past) ((recordings past).map fun r => (r.1, r.2.2)))
    (hchange : Change m env a e b new) :
    Concluded b.calls (endings (past ++ new))
      ((recordings (past ++ new)).map fun r => (r.1, r.2.2)) := by
  have quiet : ∀ {calls}, endings new = [] → recordings new = [] →
      Concluded calls (endings past) ((recordings past).map fun r => (r.1, r.2.2)) →
      Concluded calls (endings (past ++ new))
        ((recordings (past ++ new)).map fun r => (r.1, r.2.2)) := by
    intro calls hendings hrecordings h
    rwa [endings_append, recordings_append, hendings, hrecordings, List.append_nil, List.append_nil]
  have closes : ∀ {calls j o}, new = [.ended j o] →
      Concluded calls (endings past ++ [(j, o)]) ((recordings past).map fun r => (r.1, r.2.2)) →
      Concluded calls (endings (past ++ new))
        ((recordings (past ++ new)).map fun r => (r.1, r.2.2)) := by
    rintro calls j o rfl h
    rw [endings_append, recordings_append]
    rwa [show recordings [Notice.ended j o] = [] from rfl, List.append_nil]
  cases hchange with
  | nothing => exact quiet rfl rfl h
  | begins d => exact quiet rfl rfl (h.push d)
  | lacks hc => exact closes rfl (h.conclude hline hc rfl nofun _)
  | hears reply hc => exact closes rfl (h.conclude hline hc rfl nofun _)
  | records hc =>
    rename_i j d o
    have hto : ∀ o', afterRecording d o ≠ .recording o' := by cases d <;> exact nofun
    have hdone := h.complete hline hc hto
    rw [endings_append, recordings_append, List.map_append]
    rwa [show endings [Notice.recorded j env.now o] = [] from rfl, List.append_nil]
  | enters hc =>
    rename_i j seen d hi
    have hto : ∀ o, a.admitted m env d seen ≠ .recording o := by
      obtain hp | ⟨answer, hp⟩ := admitted_cases m env a d seen <;> rw [hp] <;> exact nofun
    exact quiet rfl rfl (h.enter hc (.inr ⟨nofun, nofun⟩) hto)
  | yields hc hp => exact quiet rfl rfl (h.enter hc (.inl rfl) nofun)
  | looks hc | serves hc | passes hc | joins hc | sends hc | leaves hc | turns hc | reads hc =>
    exact quiet rfl rfl (h.enter hc (.inr ⟨nofun, nofun⟩) nofun)

/-- **What is recorded of an exchange is what came of it.** -/
theorem concluded_run (m : Method) (events : List (Surroundings × Event)) :
    Concluded (initial.run m events).1.calls (endings (initial.run m events).2)
      ((recordings (initial.run m events).2).map fun r => (r.1, r.2.2)) := by
  exact (run_induction
    (fun a past => Orderly a ∧ Concluded a.calls (endings past)
      ((recordings past).map fun r => (r.1, r.2.2)))
    (fun _ _ _ _ _ hchange h => ⟨h.1.step hchange, h.2.step h.1 hchange⟩)
    ⟨orderly_initial, concluded_initial⟩).2

/-! ### The standing -/

theorem Change.recordings_new (hchange : Change m env a e b new) :
    recordings new = [] ∨ ∃ i d o, a.calls[i]? = some ⟨d, .recording o⟩ ∧
      recordings new = [(i, env.now, o)] := by
  cases hchange with
  | records hc => exact .inr ⟨_, _, _, hc, rfl⟩
  | _ => exact .inl rfl

/-- Exchanges are recorded at the time that the clock shows at the event that records them. -/
theorem times_run (m : Method) (a : Authenticator) (events : List (Surroundings × Event)) :
    ((recordings (a.run m events).2).map fun r => r.2.1).Sublist
      (events.map fun x => x.1.now) := by
  induction events generalizing a with
  | nil => exact .slnil
  | cons x rest ih =>
    obtain ⟨env, e⟩ := x
    rw [run_cons, recordings_append, List.map_append, List.map_cons]
    obtain h | ⟨i, d, o, -, h⟩ := (change_step m env a e).recordings_new
    · rw [h]
      exact (ih _).cons _
    · rw [h]
      exact (ih _).cons_cons _

/-- **The standing is the history of the exchanges, at any moment of any run.** There is never more
than one request that waits for its reply. The standing reflects what was recorded, newest first.
Exchanges are recorded in the order in which their calls got the guard, no call gets it twice, and
the times are what the clock showed. What is recorded of an exchange is what came of it; nothing
that came of an exchange is missing but what is recorded next or was given up with its call. -/
theorem standing_history (m : Method) (events : List (Surroundings × Event)) :
    let a := (initial.run m events).1
    let notices := (initial.run m events).2
    let recorded := recordings notices
    (∀ i j, (a.pending? i).isSome → (a.pending? j).isSome → i = j) ∧
      a.standing.Reflects (recorded.map Prod.snd).reverse ∧
      (grants notices).Nodup ∧
      (recorded.map Prod.fst).Sublist (grants notices) ∧
      (recorded.map fun r => r.2.1).Sublist (events.map fun x => x.1.now) ∧
      (recorded.map fun r => (r.1, r.2.2)).Sublist (endings notices) ∧
      ∀ i o, (i, o) ∈ endings notices → (i, o) ∈ recorded.map (fun r => (r.1, r.2.2)) ∨
        ∃ c, a.calls[i]? = some c ∧ (c.phase = .recording o ∨ c.phase = .cancelled) := by
  have hturn := inTurn_run m events
  have hconclude := concluded_run m events
  refine ⟨fun i j => (orderly_run orderly_initial m events).eq_of_pending, ?_, hturn.nodup,
    hturn.sub, times_run m initial events, hconclude.sub, hconclude.kept⟩
  have hfold := standing_run m initial events
  rw [outcomes_eq_map_recordings] at hfold
  have hreflects := Standing.reflects_initial.foldl
    ((recordings (initial.run m events).2).map Prod.snd)
  rw [List.append_nil] at hreflects
  rw [hfold]
  exact hreflects

end Authenticator

end VaultTokens
