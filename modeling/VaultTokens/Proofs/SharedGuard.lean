import VaultTokens.Proofs.LoginHistory

/-!
# What calls know that share one login

Some calls begin while a token is missing or due, and all of them look at it before the first
success. A call that gets the guard looks again. As long as every exchange has failed it goes on to
exchange something itself; after the first success it takes that over: a login because there was a
success since it looked, a call for the token because the new token is not due.

The two ways of looking again are different, so that they agree is a property of the whole run. It
is an invariant in three parts: what every call knows (`Fits`), what the standing can be
(`Outlook`), and how the order of the guard, the requests and the recorded exchanges fit together
(`Shared`).

## Main results

* `Shared.admitted_of_fruitless` — before the first success everyone exchanges something
* `Shared.admitted_of_success` — after it nobody does
* `Shared.step` — every change preserves the invariant
-/

namespace VaultTokens

namespace Login

/-- Whether requests can be sent to what a text names. -/
def canSend (endpoint : String) : Bool :=
  match Url.Locator.parse? endpoint with
  | some (.server url) => Http.isTarget url
  | _ => false

/-- Whether logins can be sent to a server at all. -/
def canAsk (server : Url) : Bool := canSend (kubernetesEndpoint (.server server))

/-- There is a request without a token exactly if it can be sent, whatever it says. -/
theorem isOk_post_none (w : Words) (endpoint body : String) :
    (post w endpoint none body).isOk = canSend endpoint := by
  rw [post, canSend]
  cases Url.Locator.parse? endpoint with
  | none => rfl
  | some target =>
    cases target with
    | foreign url => rfl
    | server url =>
      simp only [prepare, Http.ready]
      by_cases htarget : Http.isTarget url = true <;> simp [htarget, Except.isOk, Except.toBool]

theorem isOk_kubernetesRequest (server : Url) (role jwt : String) :
    (kubernetesRequest (.server server) role jwt).isOk = canAsk server :=
  isOk_post_none ..

end Login

theorem Standing.countUp_ne_zero (n : UInt32) : countUp n ≠ 0 := by
  intro h
  have hcount := toNat_countUp n
  rw [h] at hcount
  have hzero : (0 : UInt32).toNat = 0 := rfl
  omega

namespace Authenticator

variable {m : Method} {env : Surroundings} {base a b : Authenticator} {e : Event}
  {past new : List Notice} {i : Nat} {c : Call} {phase : Phase} {t : Timestamp} {reachable : Bool}
  {granted posted : List Nat} {records : List (Nat × Timestamp × Except Failure Issued)}

/-! ### What a run has come to -/

/-- The calls that sent requests, in order. -/
def posts (notices : List Notice) : List Nat :=
  notices.filterMap fun n =>
    match n with
    | .sent i _ => some i
    | _ => none

@[simp]
theorem posts_append (past new : List Notice) : posts (past ++ new) = posts past ++ posts new :=
  List.filterMap_append ..

/-- No exchange has succeeded. -/
def Fruitless (records : List (Nat × Timestamp × Except Failure Issued)) : Prop :=
  ∀ r ∈ records, ∃ f, r.2.2 = .error f

theorem fruitless_nil : Fruitless [] := by
  intro r hr
  cases hr

theorem fruitless_append {more : List (Nat × Timestamp × Except Failure Issued)} :
    Fruitless (records ++ more) ↔ Fruitless records ∧ Fruitless more := by
  simp only [Fruitless, List.mem_append]
  exact ⟨fun h => ⟨fun r hr => h r (.inl hr), fun r hr => h r (.inr hr)⟩,
    fun h r hr => hr.elim (h.1 r) (h.2 r)⟩

theorem Fruitless.not_mem (h : Fruitless records) {j : Nat} {time : Timestamp} {issued : Issued} :
    (j, time, .ok issued) ∉ records := by
  intro hmem
  obtain ⟨f, hf⟩ := h _ hmem
  cases hf

/-- What the standing can be after some exchanges at one time, of which only the last one can have
succeeded. -/
inductive Outlook (base : Standing) (t : Timestamp) (threshold : Span) (s : Standing)
    (records : List (Nat × Timestamp × Except Failure Issued)) : Prop where
  /-- Nothing has been tried. -/
  | untried (hs : s = base) (hr : records = [])
  /-- Everything has failed, and the old lease is still there. -/
  | failed (hr : Fruitless records) (hs : s.lease = base.lease) (hf : s.failures ≠ 0)
  /-- The last exchange has succeeded, and its lease is not due. -/
  | won (fails : List (Nat × Timestamp × Except Failure Issued)) (w : Nat) (issued : Issued)
    (hr : records = fails ++ [(w, t, .ok issued)]) (hf : Fruitless fails)
    (hs : s = ⟨some (Lease.grant issued t), 0, none⟩)
    (hd : (Lease.grant issued t).isDue t threshold = false)

/-- A call knows what becomes of it: its exchange has failed, or another one has succeeded. -/
def Settled (records : List (Nat × Timestamp × Except Failure Issued)) (i : Nat) : Prop :=
  (∃ time f, (i, time, .error f) ∈ records) ∨ ∃ w time issued, (w, time, .ok issued) ∈ records

/-- The answer to a call is as it should be. If its own exchange failed, a login is told why and a
call for the token still gets one if there was one before. Otherwise it gets the new token. -/
def Fulfilled (base : Standing) (records : List (Nat × Timestamp × Except Failure Issued)) (i : Nat)
    (d : Demand) (answer : Answer) : Prop :=
  (∃ time f, (i, time, .error f) ∈ records ∧
    match d with
    | .login => answer = .issued (.error f)
    | .token => ∃ result, answer = .token result ∧
      (base.lease.isSome → ∃ token, result = .ok token)) ∨
  ∃ w time issued, (w, time, .ok issued) ∈ records ∧ (∀ time f, (i, time, .error f) ∉ records) ∧
    match d with
    | .login => ∃ result, answer = .issued (.ok result) ∧ result.token = issued.token
    | .token => answer = .token (.ok issued.token)

/-- The requests that calls have sent once they have exchanged something, of which there are none if
the server cannot be asked. -/
def postsOf (reachable : Bool) (calls : List Nat) : List Nat := if reachable then calls else []

/-- What is known about a call in each of its phases, from who got the guard, who sent a request and
what was recorded. -/
def Fits (base : Authenticator) (reachable : Bool) (granted posted : List Nat)
    (records : List (Nat × Timestamp × Except Failure Issued)) (i : Nat) (c : Call) : Prop :=
  match c.phase with
  | .begun => Fruitless records
  | .arriving seen | .waiting seen =>
    base.recorded ≤ seen ∧ seen ≤ base.recorded + records.length ∧
      (seen = base.recorded + records.length → Fruitless records)
  | .presenting =>
    Fruitless records ∧ granted = records.map Prod.fst ++ [i] ∧
      posted = postsOf reachable (records.map Prod.fst)
  | .exchanging _ | .recording _ =>
    Fruitless records ∧ granted = records.map Prod.fst ++ [i] ∧
      posted = postsOf reachable (records.map Prod.fst ++ [i])
  | .leaving (some answer) => i ∈ granted ∧ Fulfilled base.standing records i c.demand answer
  | .leaving none | .reading => i ∈ granted ∧ c.demand = .token ∧ Settled records i
  | .finished answer => i ∈ granted ∧ Fulfilled base.standing records i c.demand answer
  | .cancelled => False

/-- How the order of the guard, the requests and the recorded exchanges fit together. -/
structure Shared (base : Authenticator) (t : Timestamp) (threshold : Span) (reachable : Bool)
    (a : Authenticator) (granted posted : List Nat)
    (records : List (Nat × Timestamp × Except Failure Issued)) : Prop where
  /-- Every record counts. -/
  recorded : a.recorded = base.recorded + records.length
  /-- Only the last exchange can have succeeded. -/
  outlook : Outlook base.standing t threshold a.standing records
  /-- The first to get the guard have exchanged something, each in its turn. -/
  turn : records.map Prod.fst <+: granted
  /-- No call from before gets the guard. -/
  fresh : ∀ i ∈ granted, base.calls.size ≤ i
  /-- Calls are never fewer. -/
  size : base.calls.size ≤ a.calls.size
  /-- While no exchange is open, all requests belong to recorded exchanges, and so does everyone who
  got the guard unless there was a success. -/
  resting : (∀ (i : Nat) (c : Call), a.calls[i]? = some c → c.phase.isOpen = false) →
    (Fruitless records → granted = records.map Prod.fst) ∧
      posted = postsOf reachable (records.map Prod.fst)
  /-- The calls from before stay over. -/
  old : ∀ i c, a.calls[i]? = some c → i < base.calls.size → c.phase.isOver = true
  /-- Every other call fits. -/
  fits : ∀ i c, a.calls[i]? = some c → base.calls.size ≤ i →
    Fits base reachable granted posted records i c

/-! ### The outlook -/

section Outlook

variable {known s : Standing} {threshold : Span}

theorem Outlook.lease_eq (h : Outlook known t threshold s records) (hr : Fruitless records) :
    s.lease = known.lease := by
  cases h with
  | untried hs => rw [hs]
  | failed _ hs => exact hs
  | won fails w issued hrecords =>
    have hmem : (w, t, .ok issued) ∈ records := by simp [hrecords]
    exact absurd hmem hr.not_mem

/-- A token stays due until an exchange succeeds. -/
theorem Outlook.needsLogin (h : Outlook known t threshold s records) (hr : Fruitless records)
    (hneeds : known.needsLogin t threshold = true) : s.needsLogin t threshold = true := by
  rw [Standing.needsLogin, h.lease_eq hr]
  exact hneeds

theorem Outlook.lease_isSome (h : Outlook known t threshold s records)
    (hlease : known.lease.isSome = true) : s.lease.isSome = true := by
  cases h with
  | untried hs => rwa [hs]
  | failed _ hs => rwa [hs]
  | won fails w issued _ _ hs => rw [hs]; rfl

/-- Once an exchange has succeeded, its token is served. -/
theorem Outlook.served_of_mem (h : Outlook known t threshold s records) {j : Nat} {time : Timestamp}
    {issued : Issued} (hmem : (j, time, .ok issued) ∈ records) :
    ∃ w issued, (w, t, .ok issued) ∈ records ∧ served s = .ok issued.token := by
  cases h with
  | untried _ hr =>
    rw [hr] at hmem
    cases hmem
  | failed hr => exact absurd hmem hr.not_mem
  | won fails w issued hr _ hs => exact ⟨w, issued, by simp [hr], by rw [hs]; rfl⟩

theorem Outlook.record (h : Outlook known t threshold s records) (hr : Fruitless records)
    {o : Except Failure Issued}
    (hdue : ∀ issued, o = .ok issued → (Lease.grant issued t).isDue t threshold = false) (i : Nat) :
    Outlook known t threshold (s.record t o) (records ++ [(i, t, o)]) := by
  cases o with
  | ok issued => exact .won records i issued rfl hr rfl (hdue issued rfl)
  | error f =>
    refine .failed (fruitless_append.mpr ⟨hr, ?_⟩) (h.lease_eq hr) (Standing.countUp_ne_zero _)
    rintro r hmem
    rw [List.mem_singleton.mp hmem]
    exact ⟨f, rfl⟩

end Outlook

/-! ### Answers do not change -/

theorem Settled.append (h : Settled records i) (r : Nat × Timestamp × Except Failure Issued) :
    Settled (records ++ [r]) i := by
  rcases h with ⟨time, f, hmem⟩ | ⟨w, time, issued, hmem⟩
  · exact .inl ⟨time, f, List.mem_append_left _ hmem⟩
  · exact .inr ⟨w, time, issued, List.mem_append_left _ hmem⟩

theorem Fulfilled.append {known : Standing} {d : Demand} {answer : Answer}
    (h : Fulfilled known records i d answer) (hr : Fruitless records)
    (r : Nat × Timestamp × Except Failure Issued) :
    Fulfilled known (records ++ [r]) i d answer := by
  rcases h with ⟨time, f, hmem, hanswer⟩ | ⟨w, time, issued, hmem, -⟩
  · exact .inl ⟨time, f, List.mem_append_left _ hmem, hanswer⟩
  · exact absurd hmem hr.not_mem

/-- What is known about a call that does not hold the guard stays so when others get it or send a
request. -/
theorem Fits.grow (h : Fits base reachable granted posted records i c)
    (hout : c.phase.holds = false) {granted' : List Nat} (hgranted : granted ⊆ granted')
    (posted' : List Nat) : Fits base reachable granted' posted' records i c := by
  obtain ⟨d, phase⟩ := c
  cases phase with
  | begun | arriving _ | waiting _ => exact h
  | presenting | exchanging _ | recording _ | leaving _ => cases hout
  | reading => exact ⟨hgranted h.1, h.2⟩
  | finished _ => exact ⟨hgranted h.1, h.2⟩
  | cancelled => exact h

/-- What is known about a call that does not hold the guard stays so when another one's exchange is
recorded after failures only. -/
theorem Fits.record (h : Fits base reachable granted posted records i c)
    (hout : c.phase.holds = false) (hr : Fruitless records)
    {r : Nat × Timestamp × Except Failure Issued}
    (hbegun : c.phase = .begun → ∃ f, r.2.2 = .error f) :
    Fits base reachable granted posted (records ++ [r]) i c := by
  obtain ⟨d, phase⟩ := c
  cases phase with
  | begun =>
    refine fruitless_append.mpr ⟨h, ?_⟩
    rintro r' hmem
    rw [List.mem_singleton.mp hmem]
    exact hbegun rfl
  | arriving seen | waiting seen =>
    refine ⟨h.1, ?_, fun hseen => ?_⟩
    · rw [List.length_append]
      exact Nat.le_trans h.2.1 (by omega)
    · rw [List.length_append, List.length_singleton] at hseen
      have hle : seen ≤ base.recorded + records.length := h.2.1
      omega
  | presenting | exchanging _ | recording _ | leaving _ => cases hout
  | reading => exact ⟨h.1, h.2.1, h.2.2.append r⟩
  | finished _ => exact ⟨h.1, h.2.append hr r⟩
  | cancelled => exact h

/-! ### One change -/

section Shared

variable {threshold : Span} {server : Url} {role : String} {account : ServiceAccount}

/-- The line is not part of what is shared. -/
theorem Shared.withLine (h : Shared base t threshold reachable a granted posted records)
    (line : List Nat) :
    Shared base t threshold reachable { a with line } granted posted records :=
  ⟨h.recorded, h.outlook, h.turn, h.fresh, h.size, h.resting, h.old, h.fits⟩

theorem Shared.le_of_live (h : Shared base t threshold reachable a granted posted records)
    (hc : a.calls[i]? = some c) (hlive : c.phase.isOver = false) : base.calls.size ≤ i := by
  refine Nat.le_of_not_lt fun hi => ?_
  rw [h.old i c hc hi] at hlive
  cases hlive

theorem Shared.fit (h : Shared base t threshold reachable a granted posted records)
    (hc : a.calls[i]? = some c) (hlive : c.phase.isOver = false) :
    Fits base reachable granted posted records i c :=
  h.fits i c hc (h.le_of_live hc hlive)

/-- Nobody's exchange is open while someone waits at the head of the line. -/
theorem isOpen_of_head (hline : Orderly a) (hc : a.calls[i]? = some c)
    (hi : a.line.head? = some i) (hout : c.phase.isOpen = false) :
    ∀ (j : Nat) (c' : Call), a.calls[j]? = some c' → c'.phase.isOpen = false := by
  intro j c' hj
  by_cases hopen : c'.phase.isOpen = true
  · have hholds : c'.phase.holds = true := by
      obtain ⟨d, phase⟩ := c'
      cases phase <;> first | rfl | cases hopen
    obtain rfl := Option.some.inj ((hline.first j c' hj hholds).symm.trans hi)
    rw [← Option.some.inj (hc.symm.trans hj)]
    exact hout
  · simpa using hopen

theorem Shared.size_enter (h : Shared base t threshold reachable a granted posted records) :
    base.calls.size ≤ (a.enter i phase).calls.size := by
  rw [size_calls_enter]
  exact h.size

/-- The calls from before stay over when another one goes on. -/
theorem Shared.old_enter (h : Shared base t threshold reachable a granted posted records)
    (hc : a.calls[i]? = some c) (hlive : c.phase.isOver = false) :
    ∀ j c', (a.enter i phase).calls[j]? = some c' → j < base.calls.size →
      c'.phase.isOver = true := by
  intro j c' hj hlt
  obtain ⟨rfl, -⟩ | ⟨-, hj⟩ := calls_enter_cases hc hj
  · exact absurd (h.le_of_live hc hlive) (Nat.not_le_of_lt hlt)
  · exact h.old j c' hj hlt

/-- A call goes on while nothing is granted, sent or recorded. -/
theorem Shared.enter (h : Shared base t threshold reachable a granted posted records)
    (hc : a.calls[i]? = some c) (hlive : c.phase.isOver = false)
    (hopen : phase.isOpen = c.phase.isOpen)
    (hfit : Fits base reachable granted posted records i { c with phase := phase }) :
    Shared base t threshold reachable (a.enter i phase) granted posted records := by
  refine ⟨h.recorded, h.outlook, h.turn, h.fresh, h.size_enter,
    fun hclosed => h.resting fun j c' hj => ?_, h.old_enter hc hlive, fun j c' hj hle => ?_⟩
  · by_cases hij : i = j
    · subst hij
      rw [← Option.some.inj (hc.symm.trans hj), ← hopen]
      exact hclosed i _ (calls_enter_self hc phase)
    · exact hclosed j c' (by rwa [calls_enter_of_ne hij])
  · obtain ⟨rfl, rfl⟩ | ⟨-, hj⟩ := calls_enter_cases hc hj
    · exact hfit
    · exact h.fits j c' hj hle

/-- A call begins before there was a success. -/
theorem Shared.begin (h : Shared base t threshold reachable a granted posted records)
    (hr : Fruitless records) (d : Demand) :
    Shared base t threshold reachable { a with calls := a.calls.push ⟨d, .begun⟩ } granted posted
      records := by
  have hnew : ∀ (j : Nat) (c : Call), (a.calls.push ⟨d, .begun⟩)[j]? = some c →
      (a.calls[j]? = some c) ∨ (j = a.calls.size ∧ c = ⟨d, .begun⟩) := by
    intro j c hj
    rw [Array.getElem?_push] at hj
    split at hj
    · rename_i hlast
      exact .inr ⟨hlast, (Option.some.inj hj).symm⟩
    · exact .inl hj
  refine ⟨h.recorded, h.outlook, h.turn, h.fresh, ?_, fun hclosed => h.resting fun j c' hj => ?_,
    fun j c' hj hlt => ?_, fun j c' hj hle => ?_⟩
  · rw [Array.size_push]
    exact Nat.le_succ_of_le h.size
  · have hlt := (Array.getElem?_eq_some_iff.mp hj).1
    exact hclosed j c' (by rwa [Array.getElem?_push_lt hlt, ← Array.getElem?_eq_getElem hlt])
  · obtain hj | ⟨rfl, -⟩ := hnew j c' hj
    · exact h.old j c' hj hlt
    · exact absurd hlt (Nat.not_lt.mpr h.size)
  · obtain hj | ⟨-, rfl⟩ := hnew j c' hj
    · exact h.fits j c' hj hle
    · exact hr

/-- Who holds the guard sends its request. -/
theorem Shared.send (h : Shared base t threshold reachable a granted posted records)
    (hline : Orderly a) {d : Demand} (hc : a.calls[i]? = some ⟨d, .presenting⟩)
    (hreachable : reachable = true) (r : Request) :
    Shared base t threshold reachable (a.enter i (.exchanging r)) granted (posted ++ [i])
      records := by
  obtain ⟨hr, hgranted, hposted⟩ := h.fit hc rfl
  refine ⟨h.recorded, h.outlook, h.turn, h.fresh, h.size_enter, fun hclosed => ?_,
    h.old_enter hc rfl, fun j c' hj hle => ?_⟩
  · exact absurd (hclosed i _ (calls_enter_self hc _)) nofun
  · obtain ⟨rfl, rfl⟩ | ⟨hji, hj⟩ := calls_enter_cases hc hj
    · refine ⟨hr, hgranted, ?_⟩
      rw [hposted, hreachable]
      rfl
    · refine (h.fits j c' hj hle).grow ?_ (List.Subset.refl _) _
      rw [← Bool.not_eq_true]
      exact fun hholds => hji (hline.eq_of_holds hj hc hholds rfl)

/-- The first in line gets the guard. -/
theorem Shared.admit (h : Shared base t threshold reachable a granted posted records)
    (hline : Orderly a) (hc : a.calls[i]? = some c) (hi : a.line.head? = some i)
    (hlive : c.phase.isOver = false) (hout : c.phase.isOpen = false)
    (hstay : Fruitless records → phase.isOpen = true)
    (hfit : posted = postsOf reachable (records.map Prod.fst) →
      (Fruitless records → granted = records.map Prod.fst) →
      Fits base reachable (granted ++ [i]) posted records i { c with phase := phase }) :
    Shared base t threshold reachable (a.enter i phase) (granted ++ [i]) posted records := by
  obtain ⟨hgranted, hposted⟩ := h.resting (isOpen_of_head hline hc hi hout)
  have hle := h.le_of_live hc hlive
  refine ⟨h.recorded, h.outlook, h.turn.trans (List.prefix_append ..), fun j hj => ?_,
    h.size_enter, fun hclosed => ⟨fun hr => ?_, hposted⟩, h.old_enter hc hlive,
    fun j c' hj hle => ?_⟩
  · rcases List.mem_append.mp hj with hj | hj
    · exact h.fresh j hj
    · rwa [List.mem_singleton.mp hj]
  · have hphase := hclosed i _ (calls_enter_self hc phase)
    rw [hstay hr] at hphase
    cases hphase
  · obtain ⟨rfl, rfl⟩ | ⟨hji, hj⟩ := calls_enter_cases hc hj
    · exact hfit hposted hgranted
    · refine (h.fits j c' hj hle).grow ?_ (List.subset_append_left ..) _
      rw [← Bool.not_eq_true]
      exact fun hholds => hji (Option.some.inj ((hline.first j c' hj hholds).symm.trans hi))

/-- A call that has recorded its exchange, the first of its own, knows what came of it. -/
theorem fits_afterRecording (hmem : i ∈ granted) (hnew : ∀ time f, (i, time, .error f) ∉ records)
    (d : Demand) (o : Except Failure Issued) :
    Fits base reachable granted posted (records ++ [(i, t, o)]) i ⟨d, afterRecording d o⟩ := by
  have hself : (i, t, o) ∈ records ++ [(i, t, o)] :=
    List.mem_append_right _ (List.mem_singleton_self _)
  cases d with
  | token =>
    refine ⟨hmem, rfl, ?_⟩
    cases o with
    | ok issued => exact .inr ⟨i, t, issued, hself⟩
    | error f => exact .inl ⟨t, f, hself⟩
  | login =>
    refine ⟨hmem, ?_⟩
    cases o with
    | error f => exact .inl ⟨t, f, hself, rfl⟩
    | ok issued =>
      refine .inr ⟨i, t, issued, hself, fun time f hfail => ?_, issued, rfl, rfl⟩
      rcases List.mem_append.mp hfail with hfail | hfail
      · exact hnew time f hfail
      · cases List.mem_singleton.mp hfail

/-- Who holds the guard records its exchange. -/
theorem Shared.complete (h : Shared base t threshold reachable a granted posted records)
    (hline : Orderly a) {d : Demand} {o : Except Failure Issued}
    (hc : a.calls[i]? = some ⟨d, .recording o⟩)
    (hdue : ∀ issued, o = .ok issued → (Lease.grant issued t).isDue t threshold = false)
    (hbegun : (∃ f, o = .error f) ∨
      ∀ (j : Nat) (c' : Call), a.calls[j]? = some c' → c'.phase ≠ .begun)
    (hnodup : granted.Nodup) :
    Shared base t threshold reachable
      ({ a with standing := a.standing.record t o, recorded := a.recorded + 1 }.enter i
        (afterRecording d o)) granted posted (records ++ [(i, t, o)]) := by
  obtain ⟨hr, hgranted, hposted⟩ := h.fit hc rfl
  have hcalls : (records ++ [(i, t, o)]).map Prod.fst = granted := by
    rw [List.map_append, hgranted]
    rfl
  have hnew : ∀ time f, (i, time, .error f) ∉ records := by
    intro time f hfail
    -- it would have got the guard twice
    rw [hgranted] at hnodup
    exact (List.nodup_append.mp hnodup).2.2 i (List.mem_map_of_mem hfail) i
      (List.mem_singleton_self i) rfl
  refine ⟨?_, h.outlook.record hr hdue i, ?_, h.fresh, h.size_enter,
    fun _ => ⟨fun _ => hcalls.symm, ?_⟩, h.old_enter hc rfl, fun j c' hj hle => ?_⟩
  · rw [List.length_append, ← Nat.add_assoc, ← h.recorded]
    rfl
  · exact ⟨[], (List.append_nil _).trans hcalls⟩
  · rw [hcalls, hposted, ← hgranted]
  · obtain ⟨rfl, rfl⟩ | ⟨hji, hj⟩ := calls_enter_cases (show
      ({ a with standing := a.standing.record t o, recorded := a.recorded + 1 } :
        Authenticator).calls[i]? = _ from hc) hj
    · exact fits_afterRecording (by simp [hgranted]) hnew d o
    · refine (h.fits j c' hj hle).record ?_ hr fun hphase => ?_
      · rw [← Bool.not_eq_true]
        exact fun hholds => hji (hline.eq_of_holds hj hc hholds rfl)
      · rcases hbegun with hfail | hnone
        · exact hfail
        · exact absurd hphase (hnone j c' hj)

/-- Who gets the guard before there was a success exchanges something itself. -/
theorem Shared.admitted_of_fruitless
    (h : Shared base t threshold reachable a granted posted records)
    (hneeds : base.standing.needsLogin t threshold = true) (hnow : env.now = t)
    (hr : Fruitless records) {seen : Nat} (hle : base.recorded ≤ seen)
    (hge : seen ≤ base.recorded + records.length) (d : Demand) :
    a.admitted (.kubernetes server role account threshold) env d seen = .presenting := by
  cases d with
  | token =>
    have hdue := h.outlook.needsLogin hr hneeds
    rw [← hnow] at hdue
    simp [admitted, Method.threshold, hdue]
  | login =>
    have hnone : a.succeededSince seen = none := by
      cases h.outlook with
      | untried _ hrecords =>
        have hseen : a.recorded = seen := by
          rw [hrecords, List.length_nil] at hge
          rw [h.recorded, hrecords, List.length_nil]
          omega
        simp [succeededSince, hseen]
      | failed _ _ hf => simp [succeededSince, hf]
      | won fails w issued hrecords =>
        have hmem : (w, t, .ok issued) ∈ records := by simp [hrecords]
        exact absurd hmem hr.not_mem
    simp [admitted, hnone]

/-- Who gets the guard after there was a success takes it over. -/
theorem Shared.admitted_of_success
    (h : Shared base t threshold reachable a granted posted records) (server : Url) (role : String)
    (account : ServiceAccount) (hnow : env.now = t) (hr : ¬ Fruitless records) {seen : Nat}
    (hseen : seen = base.recorded + records.length → Fruitless records) (d : Demand) :
    ∃ w issued, (w, t, .ok issued) ∈ records ∧
      a.admitted (.kubernetes server role account threshold) env d seen =
        match d with
        | .login => .leaving (some (.issued (.ok (Lease.grant issued t).issued)))
        | .token => .leaving none := by
  cases h.outlook with
  | untried _ hrecords =>
    refine absurd ?_ hr
    rw [hrecords]
    exact fruitless_nil
  | failed hf => exact absurd hf hr
  | won fails w issued hrecords _ hs hd =>
    refine ⟨w, issued, by simp [hrecords], ?_⟩
    cases d with
    | token =>
      rw [← hnow] at hd
      simp [admitted, hs, Standing.needsLogin, Method.threshold, hnow]
      rwa [hnow] at hd
    | login =>
      have hother : a.recorded ≠ seen := by
        rintro rfl
        exact hr (hseen h.recorded)
      simp [admitted, Method.joins, succeededSince, hother, hs]

/-- The first in line gets the guard and looks again. -/
theorem Shared.grant (h : Shared base t threshold reachable a granted posted records)
    (hneeds : base.standing.needsLogin t threshold = true) (hline : Orderly a)
    (hnow : env.now = t) {seen : Nat} {d : Demand} (hc : a.calls[i]? = some ⟨d, .waiting seen⟩)
    (hi : a.line.head? = some i) (hnew : ∀ time f, (i, time, .error f) ∉ records) :
    Shared base t threshold reachable
      (a.enter i (a.admitted (.kubernetes server role account threshold) env d seen))
      (granted ++ [i]) posted records := by
  obtain ⟨hle, hge, hseen⟩ := h.fit hc rfl
  by_cases hr : Fruitless records
  · rw [h.admitted_of_fruitless hneeds hnow hr hle hge d]
    refine h.admit hline hc hi rfl rfl (fun _ => rfl) fun hposted hgranted => ⟨hr, ?_, hposted⟩
    rw [hgranted hr]
  · obtain ⟨w, issued, hmem, hadmitted⟩ := h.admitted_of_success server role account hnow hr
      hseen d
    rw [hadmitted]
    have hself : i ∈ granted ++ [i] := List.mem_append_right _ (List.mem_singleton_self _)
    cases d with
    | token =>
      exact h.admit hline hc hi rfl rfl (fun hf => absurd hf hr) fun _ _ =>
        ⟨hself, rfl, .inr ⟨w, t, issued, hmem⟩⟩
    | login =>
      exact h.admit hline hc hi rfl rfl (fun hf => absurd hf hr) fun _ _ =>
        ⟨hself, .inr ⟨w, t, issued, hmem, hnew, _, rfl, rfl⟩⟩

/-- Who reads the token after its own exchange gets what there was before if the exchange failed,
and who has not exchanged anything gets the token of the success. -/
theorem Shared.read (h : Shared base t threshold reachable a granted posted records) {d : Demand}
    (hc : a.calls[i]? = some ⟨d, .reading⟩) :
    Shared base t threshold reachable (a.enter i (.finished (.token (served a.standing)))) granted
      posted records := by
  obtain ⟨hmem, rfl, hsettled⟩ := h.fit hc rfl
  refine h.enter hc rfl rfl ⟨hmem, ?_⟩
  by_cases hfail : ∃ time f, (i, time, .error f) ∈ records
  · obtain ⟨time, f, hfail⟩ := hfail
    refine .inl ⟨time, f, hfail, _, rfl, fun hlease => ?_⟩
    obtain ⟨l, hl⟩ := Option.isSome_iff_exists.mp (h.outlook.lease_isSome hlease)
    exact ⟨l.token, by simp [served, Standing.token, hl]⟩
  · obtain hown | ⟨w, time, issued, hwon⟩ := hsettled
    · exact absurd hown hfail
    · obtain ⟨w, issued, hmem, hserved⟩ := h.outlook.served_of_mem hwon
      refine .inr ⟨w, t, issued, hmem, fun time f hown => hfail ⟨time, f, hown⟩, ?_⟩
      rw [hserved]

theorem prepare_of_read (server : Url) (role : String) (threshold : Span) {files : FileTree}
    {jwt : String} (hread : account.read files = .ok jwt) :
    ((Method.kubernetes server role account threshold).prepare files).isOk
      = Login.canAsk server := by
  rw [Method.prepare, hread]
  exact Login.isOk_kubernetesRequest server role jwt

/-- **Every change preserves how the calls share a login**, as long as no call is given up, calls
begin before the first success, and whoever is to succeed finds no call that has not looked yet. -/
theorem Shared.step (hneeds : base.standing.needsLogin t threshold = true) (hline : Orderly a)
    (hturn : InTurn a.calls (grants past) ((recordings past).map Prod.fst))
    (h : Shared base t threshold (Login.canAsk server) a (grants past) (posts past)
      (recordings past))
    (hnow : env.now = t) (hread : ∃ jwt, account.read env.files = .ok jwt)
    (hcancel : ∀ j, e ≠ .cancel j) (hbegin : ∀ d, e = .begin d → Fruitless (recordings past))
    (hlate : (∀ (j : Nat) d o, a.calls[j]? = some ⟨d, .recording o⟩ → ∃ f, o = .error f) ∨
      ∀ (j : Nat) (c : Call), a.calls[j]? = some c → c.phase ≠ .begun)
    (hdue : ∀ j d issued, a.calls[j]? = some ⟨d, .recording (.ok issued)⟩ →
      Fruitless (recordings past) → recordings new = [(j, t, .ok issued)] →
      (Lease.grant issued t).isDue t threshold = false)
    (hchange : Change (.kubernetes server role account threshold) env a e b new) :
    Shared base t threshold (Login.canAsk server) b (grants (past ++ new)) (posts (past ++ new))
      (recordings (past ++ new)) := by
  have quiet : ∀ {b}, grants new = [] → posts new = [] → recordings new = [] →
      Shared base t threshold (Login.canAsk server) b (grants past) (posts past)
        (recordings past) →
      Shared base t threshold (Login.canAsk server) b (grants (past ++ new)) (posts (past ++ new))
        (recordings (past ++ new)) := by
    intro b hgrants hposts hrecordings h
    rwa [grants_append, posts_append, recordings_append, hgrants, hposts, hrecordings,
      List.append_nil, List.append_nil, List.append_nil]
  obtain ⟨jwt, hread⟩ := hread
  have hprepare := prepare_of_read server role threshold hread
  cases hchange with
  | nothing => exact quiet rfl rfl rfl h
  | begins d => exact quiet rfl rfl rfl (h.begin (hbegin d rfl) d)
  | looks hc =>
    have hr := h.fit hc rfl
    refine quiet rfl rfl rfl (h.enter hc rfl rfl ⟨?_, ?_, fun _ => hr⟩)
    · rw [h.recorded]
      exact Nat.le_add_right ..
    · exact Nat.le_of_eq h.recorded
  | serves hc hm => cases hm
  | passes hc hs =>
    have hneeded := h.outlook.needsLogin (h.fit hc rfl) hneeds
    rw [← hnow] at hneeded
    exact absurd (hneeded.symm.trans hs) nofun
  | joins hc =>
    have hfit := h.fit hc rfl
    exact quiet rfl rfl rfl ((h.withLine _).enter hc rfl rfl hfit)
  | enters hc hi =>
    rename_i i seen d
    rw [grants_append, posts_append, recordings_append,
      show posts [Notice.granted i] = [] from rfl, show recordings [Notice.granted i] = [] from rfl,
      List.append_nil, List.append_nil]
    refine h.grant hneeds hline hnow hc hi fun time f hfail => ?_
    obtain ⟨c, hc', hp⟩ := hturn.past i (h.turn.subset (List.mem_map_of_mem hfail))
    rw [← Option.some.inj (hc.symm.trans hc')] at hp
    cases hp
  | sends hc hr =>
    rename_i i d r
    rw [hr] at hprepare
    rw [grants_append, posts_append, recordings_append,
      show grants [Notice.sent i r] = [] from rfl, show recordings [Notice.sent i r] = [] from rfl,
      List.append_nil, List.append_nil]
    exact h.send hline hc hprepare.symm r
  | lacks hc hf =>
    rename_i i d f
    rw [hf] at hprepare
    obtain ⟨hr, hgranted, hposted⟩ := h.fit hc rfl
    refine quiet rfl rfl rfl (h.enter hc rfl rfl ⟨hr, hgranted, ?_⟩)
    rw [hposted, ← hprepare]
    rfl
  | hears reply hc =>
    have hfit := h.fit hc rfl
    exact quiet rfl rfl rfl (h.enter hc rfl rfl hfit)
  | records hc =>
    rename_i i d o
    rw [grants_append, posts_append, recordings_append,
      show grants [Notice.recorded i env.now o] = [] from rfl,
      show posts [Notice.recorded i env.now o] = [] from rfl, List.append_nil, List.append_nil,
      hnow]
    refine h.complete hline hc ?_ (hlate.imp_left fun hfail => hfail i d o hc) hturn.nodup
    rintro issued rfl
    refine hdue i d issued hc (h.fit hc rfl).1 ?_
    rw [hnow]
    rfl
  | leaves hc =>
    have hfit := h.fit hc rfl
    exact quiet rfl rfl rfl ((h.withLine _).enter hc rfl rfl hfit)
  | turns hc =>
    have hfit := h.fit hc rfl
    exact quiet rfl rfl rfl ((h.withLine _).enter hc rfl rfl hfit)
  | reads hc => exact quiet rfl rfl rfl (h.read hc)
  | yields hc => exact absurd rfl (hcancel _)

end Shared

end Authenticator

end VaultTokens
