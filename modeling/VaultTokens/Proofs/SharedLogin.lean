import VaultTokens.Proofs.SharedGuard

/-!
# Calls that share one login

Calls that begin together while a token is missing or due share the first login that succeeds. A run
of theirs has two parts. In the first one calls begin and nobody hears a reply, so nothing succeeds;
at its end every call has looked. In the second one no call begins, so whoever succeeds finds no
call that has not looked yet. A script says what the exchanges come to, one after the other.

## Main results

* `sharing_run` — the calls share a login all along
* `Outlook.length` — how many exchanges there are
* `Sharing.answered` — who gets what
* `shared_login` — all of this for a whole run
-/

namespace VaultTokens

namespace Authenticator

variable {m : Method} {env : Surroundings} {base a b : Authenticator} {e : Event}
  {past new : List Notice} {i : Nat} {c : Call} {phase : Phase} {t : Timestamp} {reachable : Bool}
  {granted posted : List Nat} {records : List (Nat × Timestamp × Except Failure Issued)}

/-! ### Before the first reply and after it -/

/-- Every call is in a phase of some kind. -/
def Everywhere (p : Phase → Prop) (a : Authenticator) : Prop :=
  ∀ (i : Nat) (c : Call), a.calls[i]? = some c → p c.phase

theorem Everywhere.enter {p : Phase → Prop} (h : Everywhere p a) (hc : a.calls[i]? = some c)
    (hp : p phase) : Everywhere p (a.enter i phase) := by
  intro j c' hj
  obtain ⟨-, rfl⟩ | ⟨-, hj⟩ := calls_enter_cases hc hj
  · exact hp
  · exact h j c' hj

/-- No call has begun without a look at the standing. -/
def AllLooked (a : Authenticator) : Prop := Everywhere (· ≠ .begun) a

/-- No call has heard of a success. -/
def NoneWon (a : Authenticator) : Prop :=
  Everywhere (fun phase => ∀ o, phase = .recording o → ∃ f, o = .error f) a

/-- Whether an event is the beginning of a call or a step of its own. -/
def Event.isBeginOrStep : Event → Bool
  | .begin _ | .advance _ => true
  | _ => false

/-- Whether an event is a step of a call or the reply to it. -/
def Event.isStepOrReply : Event → Bool
  | .advance _ | .reply _ _ => true
  | _ => false

/-- Whoever looks, looks once. -/
theorem AllLooked.step (h : AllLooked a) (he : e.isStepOrReply = true)
    (hchange : Change m env a e b new) : AllLooked b := by
  cases hchange with
  | nothing => exact h
  | begins d => cases he
  | yields hc => cases he
  | enters hc =>
    rename_i i seen d hi
    refine Everywhere.enter h hc ?_
    obtain hp | ⟨answer, hp⟩ := admitted_cases m env a d seen <;> rw [hp] <;> exact nofun
  | records hc =>
    rename_i i d o
    exact Everywhere.enter h hc (by cases d <;> exact nofun)
  | looks hc | serves hc | passes hc | joins hc | sends hc | lacks hc | hears _ hc | leaves hc
  | turns hc | reads hc => exact Everywhere.enter h hc nofun

/-- Without a reply there is no success. -/
theorem NoneWon.step (h : NoneWon a) (he : e.isBeginOrStep = true)
    (hchange : Change m env a e b new) : NoneWon b := by
  cases hchange with
  | nothing => exact h
  | begins d =>
    intro j c hj
    rw [Array.getElem?_push] at hj
    split at hj
    · obtain rfl := Option.some.inj hj
      exact nofun
    · exact h j c hj
  | hears reply hc => cases he
  | yields hc => cases he
  | enters hc =>
    rename_i i seen d hi
    refine Everywhere.enter h hc ?_
    obtain hp | ⟨answer, hp⟩ := admitted_cases m env a d seen <;> rw [hp] <;> exact nofun
  | records hc =>
    rename_i i d o
    exact Everywhere.enter h hc (by cases d <;> exact nofun)
  | lacks hc =>
    rename_i i d f hf
    refine Everywhere.enter h hc ?_
    rintro o ho
    exact ⟨f, (Phase.recording.inj ho).symm⟩
  | looks hc | serves hc | passes hc | joins hc | sends hc | leaves hc | turns hc | reads hc =>
    exact Everywhere.enter h hc nofun

/-! ### Rest -/

/-- Every call is over, and nobody stands in line. -/
structure AtRest (a : Authenticator) : Prop where
  /-- Nobody stands in line. -/
  line : a.line = []
  /-- Every call is over. -/
  finished : Everywhere (fun phase => phase.isOver = true) a

theorem Phase.of_isOver (h : phase.isOver = true) :
    phase.inLine = false ∧ phase.holds = false ∧ phase.isOpen = false ∧ phase.stepsLeft = 0 := by
  cases phase <;> first | exact ⟨rfl, rfl, rfl, rfl⟩ | cases h

theorem AtRest.orderly (h : AtRest a) : Orderly a := by
  refine ⟨?_, ?_, fun i c hc hin => ?_, fun i c hc hin => ?_⟩
  · rw [h.line]
    exact List.nodup_nil
  · rw [h.line]
    exact nofun
  · exact absurd ((Phase.of_isOver (h.finished i c hc)).1.symm.trans hin) nofun
  · exact absurd ((Phase.of_isOver (h.finished i c hc)).2.1.symm.trans hin) nofun

theorem AtRest.inTurn (h : AtRest a) : InTurn a.calls [] [] := by
  refine ⟨List.nodup_nil, nofun, .slnil, fun i c hc hin => ?_⟩
  exact absurd ((Phase.of_isOver (h.finished i c hc)).2.1.symm.trans hin) nofun

theorem AtRest.stepsLeft (h : AtRest a) : a.stepsLeft = 0 := by
  have hsum : ∀ l : List Call, (∀ c ∈ l, c.phase.isOver = true) →
      l.foldl (fun n c => n + c.phase.stepsLeft) 0 = 0 := by
    intro l hl
    induction l with
    | nil => rfl
    | cons c rest ih =>
      rw [List.foldl_cons, (Phase.of_isOver (hl c List.mem_cons_self)).2.2.2]
      exact ih fun c' hc' => hl c' (List.mem_cons_of_mem _ hc')
  rw [Authenticator.stepsLeft, ← Array.foldl_toList]
  refine hsum _ fun c hc => ?_
  obtain ⟨i, hi⟩ := List.getElem?_of_mem hc
  exact h.finished i c (by rwa [Array.getElem?_toList] at hi)

theorem AtRest.shared (h : AtRest a) (t : Timestamp) (threshold : Span) (reachable : Bool) :
    Shared a t threshold reachable a [] [] [] := by
  refine ⟨rfl, .untried rfl rfl, List.prefix_refl _, nofun, Nat.le_refl _,
    fun _ => ⟨fun _ => rfl, ?_⟩, fun i c hc _ => h.finished i c hc, fun i c hc hle => ?_⟩
  · rw [postsOf]
    split <;> rfl
  · have hlt := (Array.getElem?_eq_some_iff.mp hc).1
    omega

/-- Nothing is left to happen: no call can take a step, and none waits for a reply. -/
def Still (a : Authenticator) : Prop := ∀ i, a.isReady i = false ∧ a.pending? i = none

/-! ### A whole run -/

/-- What was recorded is what a script says, one after the other. -/
def Follows (script : Nat → Except Failure Issued)
    (records : List (Nat × Timestamp × Except Failure Issued)) : Prop :=
  ∀ p r, records[p]? = some r → r.2.2 = script p

theorem Follows.left {script : Nat → Except Failure Issued}
    {more : List (Nat × Timestamp × Except Failure Issued)}
    (h : Follows script (records ++ more)) : Follows script records := by
  intro p r hp
  exact h p r (by rw [List.getElem?_append_left (List.getElem?_eq_some_iff.mp hp).1, hp])

section Run

variable {threshold : Span} {server : Url} {role : String} {account : ServiceAccount}
  {script : Nat → Except Failure Issued} {n k : Nat}

/-- How the calls share a login, with what makes this last. -/
structure Sharing (base : Authenticator) (t : Timestamp) (threshold : Span) (reachable : Bool)
    (a : Authenticator) (past : List Notice) : Prop where
  /-- The line and the phases agree. -/
  orderly : Orderly a
  /-- Exchanges are recorded in turn. -/
  inTurn : InTurn a.calls (grants past) ((recordings past).map Prod.fst)
  /-- The calls share a login. -/
  shared : Shared base t threshold reachable a (grants past) (posts past) (recordings past)

/-- Before the first reply nothing succeeds. -/
theorem sharing_opening (server : Url) (role : String) (hbase : AtRest base)
    (hneeds : base.standing.needsLogin t threshold = true)
    {opening : List (Surroundings × Event)} (hclock : ∀ x ∈ opening, x.1.now = t)
    (hread : ∀ x ∈ opening, ∃ jwt, account.read x.1.files = .ok jwt)
    (hevents : ∀ x ∈ opening, x.2.isBeginOrStep = true) :
    let (a, past) := base.run (.kubernetes server role account threshold) opening
    Sharing base t threshold (Login.canAsk server) a past := by
  refine (run_induction (fun a past => Sharing base t threshold (Login.canAsk server) a past ∧
      Fruitless (recordings past) ∧ NoneWon a) ?_
    ⟨⟨hbase.orderly, hbase.inTurn, hbase.shared t threshold _⟩, fruitless_nil, ?_⟩).1
  · rintro env e hx a b past new hchange ⟨h, hr, hwon⟩
    have he := hevents _ hx
    refine ⟨⟨h.orderly.step hchange, h.inTurn.step h.orderly hchange,
      h.shared.step hneeds h.orderly h.inTurn (hclock _ hx) (hread _ hx) ?_ (fun _ _ => hr)
        (.inl fun j d o hc => hwon j _ hc o rfl) ?_ hchange⟩, ?_, hwon.step he hchange⟩
    · rintro j rfl
      cases he
    · intro j d issued hc
      obtain ⟨f, hf⟩ := hwon j _ hc _ rfl
      cases hf
    · rw [recordings_append]
      refine fruitless_append.mpr ⟨hr, ?_⟩
      obtain hnew | ⟨j, d, o, hc, hnew⟩ := hchange.recordings_new
      · rw [hnew]
        exact fruitless_nil
      · rw [hnew]
        rintro r hmem
        rw [List.mem_singleton.mp hmem]
        exact hwon j _ hc o rfl
  · intro j c hc o ho
    have hover := hbase.finished j c hc
    rw [ho] at hover
    cases hover

/-- Once every call has looked, the first success is the last exchange. -/
theorem sharing_rest (role : String) (hneeds : base.standing.needsLogin t threshold = true)
    {rest : List (Surroundings × Event)} (hclock : ∀ x ∈ rest, x.1.now = t)
    (hread : ∀ x ∈ rest, ∃ jwt, account.read x.1.files = .ok jwt)
    (hevents : ∀ x ∈ rest, x.2.isStepOrReply = true)
    (hdue : ∀ j issued, (∀ l < j, ∃ f, script l = .error f) → script j = .ok issued →
      (Lease.grant issued t).isDue t threshold = false)
    (hlooked : AllLooked a) (h : Sharing base t threshold (Login.canAsk server) a past) :
    let (b, more) := a.run (.kubernetes server role account threshold) rest
    Follows script (recordings (past ++ more)) →
      Sharing base t threshold (Login.canAsk server) b (past ++ more) := by
  intro hfollows
  refine (run_induction_after (fun a past => Follows script (recordings past) →
    Sharing base t threshold (Login.canAsk server) a past ∧ AllLooked a) ?_
    (fun _ => ⟨h, hlooked⟩) hfollows).1
  rintro env e hx a b past new hchange hbefore hfollows
  rw [recordings_append] at hfollows
  obtain ⟨h, hlooked⟩ := hbefore hfollows.left
  have he := hevents _ hx
  refine ⟨⟨h.orderly.step hchange, h.inTurn.step h.orderly hchange,
    h.shared.step hneeds h.orderly h.inTurn (hclock _ hx) (hread _ hx) ?_ ?_ (.inr hlooked) ?_
      hchange⟩, hlooked.step he hchange⟩
  · rintro j rfl
    cases he
  · rintro d rfl
    cases he
  · intro j d issued _ hr hnew
    rw [hnew] at hfollows
    refine hdue (recordings past).length issued (fun l hl => ?_) ?_
    · obtain ⟨f, hf⟩ := hr _ (List.getElem_mem hl)
      exact ⟨f, (hfollows.left l _ (List.getElem?_eq_getElem hl)).symm.trans hf⟩
    · exact (hfollows _ (j, t, .ok issued) (by simp)).symm

/-- The calls share a login all along. -/
theorem sharing_run (hbase : AtRest base)
    (hneeds : base.standing.needsLogin t threshold = true)
    {opening rest : List (Surroundings × Event)} (hclock : ∀ x ∈ opening ++ rest, x.1.now = t)
    (hread : ∀ x ∈ opening ++ rest, ∃ jwt, account.read x.1.files = .ok jwt)
    (hopening : ∀ x ∈ opening, x.2.isBeginOrStep = true)
    (hrest : ∀ x ∈ rest, x.2.isStepOrReply = true)
    (hlooked : AllLooked (base.run (.kubernetes server role account threshold) opening).1)
    (hdue : ∀ j issued, (∀ l < j, ∃ f, script l = .error f) → script j = .ok issued →
      (Lease.grant issued t).isDue t threshold = false) :
    let (a, past) := base.run (.kubernetes server role account threshold) (opening ++ rest)
    Follows script (recordings past) → Sharing base t threshold (Login.canAsk server) a past := by
  have hfirst := sharing_opening server role hbase hneeds
    (fun x hx => hclock x (List.mem_append_left _ hx))
    (fun x hx => hread x (List.mem_append_left _ hx)) hopening
  have hsecond := sharing_rest role hneeds (fun x hx => hclock x (List.mem_append_right _ hx))
    (fun x hx => hread x (List.mem_append_right _ hx)) hrest hdue hlooked hfirst
  rw [run_append]
  exact hsecond

/-- How many exchanges there are: as many as fail before the first success, and that one, but not
more than there are calls. -/
theorem Outlook.length {known s : Standing} (h : Outlook known t threshold s records)
    (hfollows : Follows script records) (hfail : ∀ j < k, ∃ f, script j = .error f)
    (hk : k < n → ∃ issued, script k = .ok issued) (hle : records.length ≤ n)
    (hall : Fruitless records → records.length = n) :
    records.length = min n (k + 1) ∧ (k < n → ∃ w issued, records[k]? = some (w, t, .ok issued) ∧
      ∀ j time issued', (j, time, .ok issued') ∈ records → issued' = issued) := by
  have fruitless : Fruitless records → n ≤ k := by
    intro hr
    refine Nat.le_of_not_lt fun hlt => ?_
    have hlt' : k < records.length := by rw [hall hr]; exact hlt
    obtain ⟨issued, hok⟩ := hk hlt
    obtain ⟨f, hf⟩ := hr _ (List.getElem_mem hlt')
    rw [hfollows k _ (List.getElem?_eq_getElem hlt'), hok] at hf
    cases hf
  have stays : Fruitless records → records.length = min n (k + 1) ∧ (k < n → ∃ w issued,
      records[k]? = some (w, t, .ok issued) ∧
      ∀ j time issued', (j, time, .ok issued') ∈ records → issued' = issued) := by
    intro hr
    have hge := fruitless hr
    have hn := hall hr
    exact ⟨by omega, fun hlt => by omega⟩
  cases h with
  | untried _ hr =>
    refine stays ?_
    rw [hr]
    exact fruitless_nil
  | failed hr => exact stays hr
  | won fails w issued hr hf =>
    have hlast : records[fails.length]? = some (w, t, .ok issued) := by simp [hr]
    have hlength : records.length = fails.length + 1 := by simp [hr]
    have hok := hfollows _ _ hlast
    have hk' : fails.length = k := by
      refine Nat.le_antisymm (Nat.le_of_not_lt fun hlt => ?_) (Nat.le_of_not_lt fun hlt => ?_)
      · obtain ⟨issued', hok'⟩ := hk (by omega)
        obtain ⟨f, hfk⟩ := hf _ (List.getElem_mem hlt)
        rw [hfollows k fails[k] (by rw [hr, List.getElem?_append_left hlt]; simp), hok'] at hfk
        cases hfk
      · obtain ⟨f, hfk⟩ := hfail _ hlt
        rw [← hok] at hfk
        cases hfk
    refine ⟨by omega, fun _ => ⟨w, issued, by rwa [← hk'], fun j time issued' hmem => ?_⟩⟩
    rw [hr] at hmem
    rcases List.mem_append.mp hmem with hmem | hmem
    · exact absurd hmem hf.not_mem
    · have heq := List.mem_singleton.mp hmem
      simp only [Prod.mk.injEq, Except.ok.injEq] at heq
      exact heq.2.2

/-- Everyone gets the guard, once. -/
theorem Sharing.perm (h : Sharing base t threshold reachable a past)
    (hover : Everywhere (fun phase => phase.isOver = true) a)
    (hsize : a.calls.size = base.calls.size + n) :
    (grants past).Perm (List.range' base.calls.size n) := by
  refine (List.perm_ext_iff_of_nodup h.inTurn.nodup List.nodup_range').mpr fun i => ?_
  rw [List.mem_range'_1]
  constructor
  · intro hmem
    obtain ⟨c, hc, -⟩ := h.inTurn.past i hmem
    have hlt := (Array.getElem?_eq_some_iff.mp hc).1
    exact ⟨h.shared.fresh i hmem, by omega⟩
  · rintro ⟨hle, hlt⟩
    have hi : i < a.calls.size := by omega
    have hc := Array.getElem?_eq_getElem hi
    have hfit := h.shared.fits i _ hc hle
    have hphase := hover i _ hc
    rw [Fits] at hfit
    split at hfit <;> simp_all [Phase.isOver]

/-- The exchange of a call is recorded in the place in which the call got the guard. -/
theorem Shared.getElem?_of_mem (h : Shared base t threshold reachable a granted posted records)
    (hnodup : granted.Nodup) {p : Nat} (hp : granted[p]? = some i) {time : Timestamp}
    {o : Except Failure Issued} (hmem : (i, time, o) ∈ records) :
    records[p]? = some (i, time, o) := by
  obtain ⟨q, hq⟩ := List.getElem?_of_mem hmem
  obtain ⟨tail, htail⟩ := h.turn
  have hlt := (List.getElem?_eq_some_iff.mp hq).1
  have hgq : granted[q]? = some i := by
    rw [← htail, List.getElem?_append_left (by rwa [List.length_map]), List.getElem?_map, hq]
    rfl
  have hpq := (List.getElem?_inj (List.getElem?_eq_some_iff.mp hgq).1 hnodup).mp (hgq.trans hp.symm)
  rw [← hpq]
  exact hq

/-- Who gets the guard before a place that exchanges has a record in that place. -/
theorem Shared.getElem?_of_lt (h : Shared base t threshold reachable a granted posted records)
    {p : Nat} (hp : granted[p]? = some i) (hlt : p < records.length) :
    ∃ time o, records[p]? = some (i, time, o) := by
  obtain ⟨tail, htail⟩ := h.turn
  rw [← htail, List.getElem?_append_left (by rwa [List.length_map]), List.getElem?_map,
    List.getElem?_eq_getElem hlt] at hp
  obtain rfl := Option.some.inj hp
  exact ⟨_, _, List.getElem?_eq_getElem hlt⟩

/-- The token that an answer brings. -/
def Answer.token? : Answer → Option String
  | .issued (.ok result) => some result.token
  | .token (.ok text) => some text
  | _ => none

/-- A call whose exchange failed is told so if it wanted to log in, and otherwise gets a token if
there was one before. -/
theorem Fulfilled.of_failure {known : Standing} {d : Demand} {answer : Answer}
    (h : Fulfilled known records i d answer) {f : Failure}
    (hown : ∃ time, (i, time, .error f) ∈ records)
    (honly : ∀ time f', (i, time, .error f') ∈ records → f' = f) :
    (d = .login → answer = .issued (.error f)) ∧
      (d = .token → known.lease.isSome → ∃ token, answer = .token (.ok token)) := by
  obtain ⟨time, hown⟩ := hown
  rcases h with ⟨time', f', hmem, hanswer⟩ | ⟨w, time', issued, -, hnone, -⟩
  · obtain rfl := honly time' f' hmem
    refine ⟨?_, ?_⟩
    · rintro rfl
      exact hanswer
    · rintro rfl hlease
      obtain ⟨result, rfl, hresult⟩ := hanswer
      obtain ⟨token, rfl⟩ := hresult hlease
      exact ⟨token, rfl⟩
  · exact absurd hown (hnone time f)

/-- A call without a failure of its own gets the token of the success. -/
theorem Fulfilled.of_success {known : Standing} {d : Demand} {answer : Answer}
    (h : Fulfilled known records i d answer) (hnone : ∀ time f, (i, time, .error f) ∉ records)
    {issued : Issued}
    (honly : ∀ j time issued', (j, time, .ok issued') ∈ records → issued' = issued) :
    answer.token? = some issued.token := by
  rcases h with ⟨time, f, hmem, -⟩ | ⟨w, time, issued', hmem, -, hanswer⟩
  · exact absurd hmem (hnone time f)
  · obtain rfl := honly w time issued' hmem
    cases d with
    | login =>
      obtain ⟨result, rfl, hresult⟩ := hanswer
      rw [Answer.token?, hresult]
    | token =>
      obtain rfl := hanswer
      rfl

/-- Everyone who got the guard is answered according to the place in which that was. -/
theorem Sharing.answered (h : Sharing base t threshold reachable a past)
    (hover : Everywhere (fun phase => phase.isOver = true) a)
    (hfollows : Follows script (recordings past)) (hfail : ∀ j < k, ∃ f, script j = .error f)
    (hlength : (recordings past).length = min n (k + 1)) (hn : (grants past).length = n)
    (hwon : k < n → ∃ w issued, (recordings past)[k]? = some (w, t, .ok issued) ∧
      ∀ j time issued', (j, time, .ok issued') ∈ recordings past → issued' = issued)
    {p : Nat} (hp : (grants past)[p]? = some i) :
    ∃ d answer, a.calls[i]? = some ⟨d, .finished answer⟩ ∧
      (k ≤ p → ∃ issued, script k = .ok issued ∧ answer.token? = some issued.token) ∧
      (p < k → d = .login → answer = .issued (script p)) ∧
      (p < k → d = .token → base.standing.lease.isSome →
        ∃ token, answer = .token (.ok token)) := by
  have hmem := List.mem_of_getElem? hp
  have hlt := (List.getElem?_eq_some_iff.mp hp).1
  obtain ⟨⟨d, phase⟩, hc, -⟩ := h.inTurn.past i hmem
  have hfit := h.shared.fits i _ hc (h.shared.fresh i hmem)
  have hphase := hover i _ hc
  cases phase with
  | finished answer =>
    have hfulfilled := hfit.2
    -- whatever was recorded for this call was recorded in its place
    have hplace : ∀ {time o}, (i, time, o) ∈ recordings past →
        (recordings past)[p]? = some (i, time, o) :=
      h.shared.getElem?_of_mem h.inTurn.nodup hp
    refine ⟨d, answer, hc, fun hle => ?_, ?_⟩
    · obtain ⟨w, issued, hk, honly⟩ := hwon (by omega)
      refine ⟨issued, (hfollows k _ hk).symm, hfulfilled.of_success (fun time f hown => ?_) honly⟩
      have hown := hplace hown
      have hlt' := (List.getElem?_eq_some_iff.mp hown).1
      obtain rfl : p = k := by omega
      rw [hk] at hown
      cases hown
    · rw [← imp_and]
      intro hlt'
      obtain ⟨f, hf⟩ := hfail p hlt'
      obtain ⟨time, o, hown⟩ := h.shared.getElem?_of_lt hp (by omega)
      obtain rfl : o = .error f := (hfollows p _ hown).trans hf
      rw [hf]
      refine hfulfilled.of_failure ⟨time, List.mem_of_getElem? hown⟩ fun time' f' hmem' => ?_
      have heq := (hplace hmem').symm.trans hown
      simp only [Option.some.injEq, Prod.mk.injEq, Except.error.injEq] at heq
      exact heq.2.2
  | cancelled => exact absurd hfit nofun
  | _ => cases hphase

/-- **Calls that begin together share one login.** A strategy is at rest, its token missing or due.
Some calls begin, `n` in number, and all of them look before the first reply; the clock stands
still, and the service account token can be read. The exchanges come to what a script says, one
after the other, and the lease of its first success is not due; `k` of them fail before that, or
before all calls are through.

Then no two requests wait for their replies at once, and only so many steps take a call further.
When nothing is left to happen, every call has had the guard once. The first `k + 1` in that order
have exchanged something, or all of them if they are fewer, and they have sent a request each unless
the server cannot be asked. The others have sent nothing. Every call is answered: who got the guard
after `k` failures gets the token of the success; who got it before is told its own failure if it
wanted to log in, and gets a token if there was one before and it wanted the token. -/
theorem shared_login (hm : m = .kubernetes server role account threshold) (hbase : AtRest base)
    (hneeds : base.standing.needsLogin t threshold = true)
    {opening rest : List (Surroundings × Event)} (hclock : ∀ x ∈ opening ++ rest, x.1.now = t)
    (hread : ∀ x ∈ opening ++ rest, ∃ jwt, account.read x.1.files = .ok jwt)
    (hopening : ∀ x ∈ opening, x.2.isBeginOrStep = true)
    (hrest : ∀ x ∈ rest, x.2.isStepOrReply = true)
    (hlooked : AllLooked (base.run m opening).1)
    (hn : (base.run m (opening ++ rest)).1.calls.size = base.calls.size + n)
    (hfollows : Follows script (recordings (base.run m (opening ++ rest)).2))
    (hfail : ∀ j < k, ∃ f, script j = .error f) (hk : k < n → ∃ issued, script k = .ok issued)
    (hdue : ∀ j issued, (∀ l < j, ∃ f, script l = .error f) → script j = .ok issued →
      (Lease.grant issued t).isDue t threshold = false)
    (hstill : Still (base.run m (opening ++ rest)).1) :
    let a := (base.run m (opening ++ rest)).1
    let notices := (base.run m (opening ++ rest)).2
    let order := grants notices
    (∀ before, before <+: opening ++ rest → ∀ i j, ((base.run m before).1.pending? i).isSome →
        ((base.run m before).1.pending? j).isSome → i = j) ∧
      moves m base (opening ++ rest) ≤ 8 * n ∧
      order.Perm (List.range' base.calls.size n) ∧
      (recordings notices).map Prod.fst = order.take (min n (k + 1)) ∧
      posts notices = (if Login.canAsk server then order.take (min n (k + 1)) else []) ∧
      ∀ p i, order[p]? = some i → ∃ d answer, a.calls[i]? = some ⟨d, .finished answer⟩ ∧
        (k ≤ p → ∃ issued, script k = .ok issued ∧ answer.token? = some issued.token) ∧
        (p < k → d = .login → answer = .issued (script p)) ∧
        (p < k → d = .token → base.standing.lease.isSome →
          ∃ token, answer = .token (.ok token)) := by
  subst hm
  have hmoves := moves_le (.kubernetes server role account threshold) base (opening ++ rest)
  rw [hbase.stepsLeft, hn] at hmoves
  have h := sharing_run hbase hneeds hclock hread hopening hrest hlooked hdue hfollows
  have hover : Everywhere (fun phase => phase.isOver = true) _ := fun i c hc =>
    h.orderly.isOver_of_still (fun i => (hstill i).1) (fun i => (hstill i).2) hc
  have hclosed := h.shared.resting fun i c hc => (Phase.of_isOver (hover i c hc)).2.2.1
  have hperm := h.perm hover hn
  have hlength := hperm.length_eq
  rw [List.length_range'] at hlength
  have hle := h.inTurn.sub.length_le
  rw [List.length_map, hlength] at hle
  obtain ⟨hrecords, hwon⟩ := h.shared.outlook.length hfollows hfail hk hle fun hr => by
    rw [← hlength, hclosed.1 hr, List.length_map]
  have htake := List.prefix_iff_eq_take.mp h.shared.turn
  rw [List.length_map, hrecords] at htake
  refine ⟨fun before _ i j => (orderly_run hbase.orderly _ before).eq_of_pending, by omega, hperm,
    htake, ?_, fun p i hp => h.answered hover hfollows hfail hrecords hlength hwon hp⟩
  rw [← htake]
  exact hclosed.2

end Run

/-! ### Two calls -/

/-- The script that some records follow, with one outcome for ever after. -/
def scriptOf (records : List (Nat × Timestamp × Except Failure Issued))
    (afterwards : Except Failure Issued) (p : Nat) : Except Failure Issued :=
  records[p]?.elim afterwards fun r => r.2.2

theorem follows_scriptOf (records : List (Nat × Timestamp × Except Failure Issued))
    (afterwards : Except Failure Issued) : Follows (scriptOf records afterwards) records := by
  intro p r hp
  rw [scriptOf, hp]
  rfl

theorem still_of_lt {a : Authenticator}
    (h : ∀ i < a.calls.size, a.isReady i = false ∧ (a.pending? i).isNone = true) : Still a := by
  intro i
  by_cases hi : i < a.calls.size
  · exact ⟨(h i hi).1, Option.isNone_iff_eq_none.mp (h i hi).2⟩
  · have hnone : a.calls[i]? = none := Array.getElem?_eq_none (Nat.le_of_not_lt hi)
    simp [isReady, pending?, hnone]

/-- Where two calls are made. -/
def pairMethod : Method :=
  .kubernetes ⟨.http, .absent, .name "vault", some 8200, [[]], none, none⟩ "app"
    ⟨"token", some "jwt"⟩ (Method.thresholdOf 60)

/-- Events while the clock stands still and there is no file. -/
def pairEvents (events : List Event) : List (Surroundings × Event) :=
  events.map fun e => (⟨.epoch, 0, .empty⟩, e)

/-- A login and a call for the token begin. -/
def pairOpening : List (Surroundings × Event) :=
  pairEvents [.begin .login, .begin .token, .advance 0, .advance 1]

/-- The login gets the guard first, but its request is lost; then the other call logs in. -/
def pairRest : List (Surroundings × Event) :=
  pairEvents [.advance 0, .advance 1, .advance 0, .advance 0, .reply 0 .lost, .advance 0,
    .advance 0, .advance 1, .advance 1,
    .reply 1 (.response 200 (some (Text.Utf8.encode
      "\x7b\"auth\":\x7b\"client_token\":\"s\",\"lease_duration\":3600\x7d\x7d".toList))),
    .advance 1, .advance 1, .advance 1]

theorem env_of_mem_pairEvents {events : List Event} {x : Surroundings × Event}
    (hx : x ∈ pairEvents events) : x.1 = ⟨.epoch, 0, .empty⟩ := by
  obtain ⟨e, -, rfl⟩ := List.mem_map.mp hx
  rfl

/-- What comes of the exchanges of two calls. -/
def pairScript : Nat → Except Failure Issued :=
  scriptOf (recordings (initial.run pairMethod (pairOpening ++ pairRest)).2) (.ok ⟨"s", some 3600⟩)

theorem pairScript_zero : ∃ f, pairScript 0 = .error f := by
  have hnone : (pairScript 0).toOption = none := by decide +kernel
  cases hs : pairScript 0 with
  | ok issued =>
    rw [hs] at hnone
    cases hnone
  | error f => exact ⟨f, rfl⟩

theorem pairScript_one : pairScript 1 = .ok ⟨"s", some 3600⟩ := by
  have hsome : (pairScript 1).toOption = some ⟨"s", some 3600⟩ := by decide +kernel
  cases hs : pairScript 1 with
  | ok issued =>
    rw [hs] at hsome
    rw [Option.some.inj hsome]
  | error f =>
    rw [hs] at hsome
    cases hsome

theorem pair_follows :
    Follows pairScript (recordings (initial.run pairMethod (pairOpening ++ pairRest)).2) :=
  follows_scriptOf _ _

theorem pair_still : Still (initial.run pairMethod (pairOpening ++ pairRest)).1 :=
  still_of_lt (by decide +kernel)

theorem pair_size : (initial.run pairMethod (pairOpening ++ pairRest)).1.calls.size
    = initial.calls.size + 2 := by decide +kernel

theorem pair_grants :
    (grants (initial.run pairMethod (pairOpening ++ pairRest)).2)[1]? = some 1 := by decide +kernel

theorem allLooked_of_arriving {a : Authenticator} {d d' : Demand}
    (hcalls : a.calls = #[⟨d, .arriving 0⟩, ⟨d', .arriving 0⟩]) : AllLooked a := by
  intro i c hc
  rw [hcalls] at hc
  match i, hc with
  | 0, rfl | 1, rfl => exact nofun

theorem pair_looked : AllLooked (initial.run pairMethod pairOpening).1 :=
  allLooked_of_arriving rfl

theorem pair_opens : ∀ x ∈ pairOpening, x.2.isBeginOrStep = true := by decide

theorem pair_goesOn : ∀ x ∈ pairRest, x.2.isStepOrReply = true := by decide

/-- The call that comes second gets the token of its own login. -/
theorem shared_login_pair :
    ∃ d answer, (initial.run pairMethod (pairOpening ++ pairRest)).1.calls[1]?
      = some ⟨d, .finished answer⟩ ∧ answer.token? = some "s" := by
  have henv : ∀ x ∈ pairOpening ++ pairRest, x.1 = ⟨.epoch, 0, .empty⟩ := fun x hx =>
    (List.mem_append.mp hx).elim env_of_mem_pairEvents env_of_mem_pairEvents
  have hclock : ∀ x ∈ pairOpening ++ pairRest, x.1.now = .epoch := fun x hx => by rw [henv x hx]
  have hread : ∀ x ∈ pairOpening ++ pairRest,
      ∃ jwt, ServiceAccount.read ⟨"token", some "jwt"⟩ x.1.files = .ok jwt :=
    fun x hx => ⟨"jwt", by rw [henv x hx]; rfl⟩
  have hrest : AtRest initial := ⟨rfl, fun i c hc => by simp [initial] at hc⟩
  have hfail : ∀ j < 1, ∃ f, pairScript j = .error f := by
    intro j hj
    obtain rfl : j = 0 := by omega
    exact pairScript_zero
  have hdue : ∀ j issued, (∀ l < j, ∃ f, pairScript l = .error f) → pairScript j = .ok issued →
      (Lease.grant issued .epoch).isDue .epoch (Method.thresholdOf 60) = false := by
    intro j issued hbefore hj
    have hle : j ≤ 1 := by
      refine Nat.le_of_not_lt fun hlt => ?_
      obtain ⟨f, hf⟩ := hbefore 1 hlt
      rw [pairScript_one] at hf
      cases hf
    obtain rfl | rfl : j = 0 ∨ j = 1 := by omega
    · obtain ⟨f, hf⟩ := pairScript_zero
      rw [hf] at hj
      cases hj
    · rw [pairScript_one] at hj
      obtain rfl := Except.ok.inj hj
      decide
  have h := shared_login (m := pairMethod) (k := 1) rfl hrest rfl hclock hread pair_opens
    pair_goesOn pair_looked pair_size pair_follows hfail (fun _ => ⟨_, pairScript_one⟩) hdue
    pair_still
  obtain ⟨d, answer, hc, htoken, -⟩ := h.2.2.2.2.2 1 1 pair_grants
  obtain ⟨issued, hissued, htoken⟩ := htoken (Nat.le_refl 1)
  rw [pairScript_one] at hissued
  obtain rfl := Except.ok.inj hissued
  exact ⟨d, answer, hc, htoken⟩

/-- Where a login cannot be sent to, for the server has a brace in its name. -/
def bracedMethod : Method :=
  .kubernetes ⟨.http, .absent, .name "a\x7bb", none, [[]], none, none⟩ "app"
    ⟨usualTokenFile, some "jwt"⟩ (Method.thresholdOf usualThreshold)

/-- Two logins begin and look, and each of them has the guard until it is over. -/
def bracedPair : List (Surroundings × Event) :=
  pairEvents ([.begin .login, .begin .login, .advance 0, .advance 1] ++
    List.replicate 5 (.advance 0) ++ List.replicate 5 (.advance 1))

/-- Settings may name a server to which no login can be sent. Two logins that begin together then
have an exchange each, neither of which succeeds, and send no request. -/
theorem shared_login_braced :
    (∃ settings,
      KubernetesSettings.make ⟨"http://a\x7bb", "app", some "jwt", none, none, none⟩
          = .ok settings ∧ Method.ofKubernetes settings .empty = .ok bracedMethod) ∧
      AllLooked (initial.run bracedMethod (bracedPair.take 4)).1 ∧
      Still (initial.run bracedMethod bracedPair).1 ∧
      (recordings (initial.run bracedMethod bracedPair).2).map (fun r => (r.1, r.2.2.toOption))
        = [(0, none), (1, none)] ∧
      posts (initial.run bracedMethod bracedPair).2 = [] := by
  have hparse : Url.parse? "http://a\x7bb"
      = some ⟨.http, .absent, .name "a\x7bb", none, [[]], none, none⟩ := by decide +kernel
  refine ⟨?_, allLooked_of_arriving rfl, still_of_lt (by decide +kernel), by decide +kernel,
    by decide +kernel⟩
  simp only [KubernetesSettings.make, readUrl, hparse]
  exact ⟨_, rfl, rfl⟩

end Authenticator

end VaultTokens
