import Mathlib.Data.List.Nodup
import VaultTokens.Proofs.JoinedLogins
import VaultTokens.Proofs.RenewedTokens

/-!
# Logins that renew a token side by side

Logins of a strategy that does not join stand in line like others, but they do not look at what was
recorded while they stood there: who has the guard goes on to send a request of its own. So each of
them records an exchange of its own and returns what came of that one, whether or not the one before
it succeeded.

`Apart` says how who got the guard, who sent a request and what was recorded go together, and where
each login stands in this. Every event preserves it, and with it everything about the end follows
from the fact that all logins are over.

## Main results

* `Apart.step`, `parting_run` — what every event preserves, and a whole run
* `Parting.ended` — where all logins are at the end
* `separate_logins` — how many requests are sent, in which order, and what each login returns
* `second_login_sends` — two logins, and two requests
-/

namespace VaultTokens

namespace Authenticator

variable {m : Method} {env : Surroundings} {base a b : Authenticator} {e : Event}
  {past new : List Notice} {i : Nat} {c : Call} {phase : Phase} {reachable : Bool}
  {granted posted granted' posted' : List Nat}
  {records records' : List (Nat × Timestamp × Except Failure Issued)}

/-! ### One login at a time, each for itself -/

/-- What is known about a login in each of its phases, from who got the guard, who sent a request
and what was recorded. -/
def Stands (reachable : Bool) (granted posted : List Nat)
    (records : List (Nat × Timestamp × Except Failure Issued)) (i : Nat) (c : Call) : Prop :=
  c.demand = .login ∧
    match c.phase with
    | .begun | .arriving _ | .waiting _ => True
    | .presenting =>
      granted = records.map Prod.fst ++ [i] ∧ posted = postsOf reachable (records.map Prod.fst)
    | .exchanging _ | .recording _ =>
      granted = records.map Prod.fst ++ [i] ∧
        posted = postsOf reachable (records.map Prod.fst ++ [i])
    | .leaving (some answer) | .finished answer =>
      ∃ time o, (i, time, o) ∈ records ∧ answer = .issued o
    | .leaving none | .reading | .cancelled => False

/-- How the order of the guard, the requests and the recorded exchanges go together. -/
structure Apart (base : Authenticator) (reachable : Bool) (a : Authenticator)
    (granted posted : List Nat) (records : List (Nat × Timestamp × Except Failure Issued)) :
    Prop where
  /-- No call from before gets the guard. -/
  fresh : ∀ i ∈ granted, base.calls.size ≤ i
  /-- Calls are never fewer. -/
  size : base.calls.size ≤ a.calls.size
  /-- While no exchange is open, everyone who got the guard has recorded an exchange, and has sent a
  request for it. -/
  resting : (∀ (i : Nat) (c : Call), a.calls[i]? = some c → c.phase.isOpen = false) →
    granted = records.map Prod.fst ∧ posted = postsOf reachable (records.map Prod.fst)
  /-- The calls from before stay over. -/
  old : ∀ i c, a.calls[i]? = some c → i < base.calls.size → c.phase.isOver = true
  /-- Every other call is a login. -/
  stands : ∀ i c, a.calls[i]? = some c → base.calls.size ≤ i →
    Stands reachable granted posted records i c

/-- At rest nothing is granted, sent or recorded. -/
theorem AtRest.apart (h : AtRest base) (reachable : Bool) : Apart base reachable base [] [] [] := by
  refine ⟨List.forall_mem_nil _, Nat.le_refl _, fun _ => ⟨rfl, ?_⟩,
    fun i c hc _ => h.finished i c hc, fun i c hc hle => ?_⟩
  · rw [postsOf]
    split <;> rfl
  · have hlt := (Array.getElem?_eq_some_iff.mp hc).1
    omega

/-- What is known about a call whose exchange is not open stays so. -/
theorem Stands.of_closed (h : Stands reachable granted posted records i c)
    (hclosed : c.phase.isOpen = false) (hsub : records ⊆ records') :
    Stands reachable granted' posted' records' i c := by
  obtain ⟨d, phase⟩ := c
  refine ⟨h.1, ?_⟩
  have hphase := h.2
  cases phase with
  | begun | arriving _ | waiting _ => trivial
  | presenting | exchanging _ | recording _ => cases hclosed
  | leaving answer =>
    cases answer with
    | none => exact hphase
    | some answer =>
      obtain ⟨time, o, hmem, hanswer⟩ := hphase
      exact ⟨time, o, hsub hmem, hanswer⟩
  | reading | cancelled => exact hphase
  | finished answer =>
    obtain ⟨time, o, hmem, hanswer⟩ := hphase
    exact ⟨time, o, hsub hmem, hanswer⟩

namespace Apart

/-- Only the calls are part of what goes together. -/
theorem of_calls (h : Apart base reachable a granted posted records) (hcalls : b.calls = a.calls) :
    Apart base reachable b granted posted records := by
  refine ⟨h.fresh, ?_, ?_, ?_, ?_⟩ <;> rw [hcalls]
  exacts [h.size, h.resting, h.old, h.stands]

/-- A call that is not over is a login. -/
theorem stand (h : Apart base reachable a granted posted records) (hc : a.calls[i]? = some c)
    (hlive : c.phase.isOver = false) :
    base.calls.size ≤ i ∧ Stands reachable granted posted records i c := by
  have hle : base.calls.size ≤ i := by
    refine Nat.le_of_not_lt fun hi => ?_
    rw [h.old i c hc hi] at hlive
    cases hlive
  exact ⟨hle, h.stands i c hc hle⟩

/-- The calls from before stay over while another one goes on. -/
theorem old_enter (h : Apart base reachable a granted posted records) (hc : a.calls[i]? = some c)
    (hlive : c.phase.isOver = false) (j : Nat) (c' : Call)
    (hj : (a.enter i phase).calls[j]? = some c') (hlt : j < base.calls.size) :
    c'.phase.isOver = true := by
  obtain ⟨rfl, -⟩ | ⟨-, hj⟩ := calls_enter_cases hc hj
  · exact absurd hlt (Nat.not_lt.mpr (h.stand hc hlive).1)
  · exact h.old j c' hj hlt

/-- A call goes on while nothing is granted, sent or recorded. -/
theorem goesOn (h : Apart base reachable a granted posted records) (hc : a.calls[i]? = some c)
    (hlive : c.phase.isOver = false) (hopen : phase.isOpen = c.phase.isOpen)
    (hstands : Stands reachable granted posted records i { c with phase := phase }) :
    Apart base reachable (a.enter i phase) granted posted records := by
  refine ⟨h.fresh, by rw [size_calls_enter]; exact h.size,
    fun hclosed => h.resting fun j c' hj => ?_, h.old_enter hc hlive, fun j c' hj hle => ?_⟩
  · by_cases hij : i = j
    · subst hij
      rw [← Option.some.inj (hc.symm.trans hj), ← hopen]
      exact hclosed i _ (calls_enter_self hc phase)
    · exact hclosed j c' (by rwa [calls_enter_of_ne hij])
  · obtain ⟨rfl, rfl⟩ | ⟨-, hj⟩ := calls_enter_cases hc hj
    · exact hstands
    · exact h.stands j c' hj hle

/-- A call goes on that nobody else's exchange is open beside. -/
theorem advances (h : Apart base reachable a granted posted records) (hc : a.calls[i]? = some c)
    (hlive : c.phase.isOver = false)
    (halone : ∀ (j : Nat) (c' : Call), a.calls[j]? = some c' → j ≠ i → c'.phase.isOpen = false)
    (hfresh : ∀ j ∈ granted', j ∈ granted ∨ j = i) (hsub : records ⊆ records')
    (hresting : phase.isOpen = false →
      granted' = records'.map Prod.fst ∧ posted' = postsOf reachable (records'.map Prod.fst))
    (hstands : Stands reachable granted' posted' records' i { c with phase := phase }) :
    Apart base reachable (a.enter i phase) granted' posted' records' := by
  refine ⟨fun j hj => ?_, by rw [size_calls_enter]; exact h.size,
    fun hclosed => hresting (hclosed i _ (calls_enter_self hc phase)), h.old_enter hc hlive,
    fun j c' hj hle => ?_⟩
  · rcases hfresh j hj with hj | rfl
    · exact h.fresh j hj
    · exact (h.stand hc hlive).1
  · obtain ⟨rfl, rfl⟩ | ⟨hji, hj⟩ := calls_enter_cases hc hj
    · exact hstands
    · exact (h.stands j c' hj hle).of_closed (halone j c' hj hji) hsub

/-- A login begins. -/
theorem begins (h : Apart base reachable a granted posted records) :
    Apart base reachable { a with calls := a.calls.push ⟨.login, .begun⟩ } granted posted
      records := by
  have hnew : ∀ (j : Nat) (c : Call), (a.calls.push ⟨.login, .begun⟩)[j]? = some c →
      (a.calls[j]? = some c) ∨ (j = a.calls.size ∧ c = ⟨.login, .begun⟩) := by
    intro j c hj
    rw [Array.getElem?_push] at hj
    split at hj
    · rename_i hlast
      exact .inr ⟨hlast, (Option.some.inj hj).symm⟩
    · exact .inl hj
  refine ⟨h.fresh, ?_, fun hclosed => h.resting fun j c' hj => ?_, fun j c' hj hlt => ?_,
    fun j c' hj hle => ?_⟩
  · rw [Array.size_push]
    exact Nat.le_succ_of_le h.size
  · exact hclosed j c' (getElem?_push_call hj _)
  · obtain hj | ⟨rfl, -⟩ := hnew j c' hj
    · exact h.old j c' hj hlt
    · exact absurd hlt (Nat.not_lt.mpr h.size)
  · obtain hj | ⟨-, rfl⟩ := hnew j c' hj
    · exact h.stands j c' hj hle
    · exact ⟨rfl, trivial⟩

end Apart

/-- Whether an event is the beginning of a login, a step of a call or the reply to it. -/
def Event.isOfLogins : Event → Bool
  | .begin d => d = .login
  | .advance _ | .reply _ _ => true
  | .cancel _ => false

/-- Who holds the guard has the only open exchange. -/
theorem isOpen_of_holds (hline : Orderly a) (hc : a.calls[i]? = some c)
    (hholds : c.phase.holds = true) (j : Nat) (c' : Call) (hj : a.calls[j]? = some c')
    (hji : j ≠ i) : c'.phase.isOpen = false := by
  rw [← Bool.not_eq_true]
  intro hopen
  have hholds' : c'.phase.holds = true := by
    obtain ⟨d, phase⟩ := c'
    cases phase <;> first | rfl | cases hopen
  exact hji (hline.eq_of_holds hj hc hholds' hholds)

/-- **Every change of logins that do not join keeps them apart.** -/
theorem Apart.step (hm : m.joins = false)
    (hready : ∀ files, (m.prepare files).isOk = reachable) (hline : Orderly a)
    (he : e.isOfLogins = true)
    (h : Apart base reachable a (grants past) (posts past) (recordings past))
    (hchange : Change m env a e b new) :
    Apart base reachable b (grants (past ++ new)) (posts (past ++ new))
      (recordings (past ++ new)) := by
  have quiet : grants new = [] → posts new = [] → recordings new = [] →
      Apart base reachable b (grants past) (posts past) (recordings past) →
        Apart base reachable b (grants (past ++ new)) (posts (past ++ new))
          (recordings (past ++ new)) := by
    intro hg hp hr hb
    rw [grants_append, posts_append, recordings_append, hg, hp, hr, List.append_nil,
      List.append_nil, List.append_nil]
    exact hb
  cases hchange with
  | nothing => exact quiet rfl rfl rfl h
  | begins d =>
    obtain rfl : d = .login := by simpa [Event.isOfLogins] using he
    exact quiet rfl rfl rfl h.begins
  | yields hc => cases he
  | serves hc => cases (h.stand hc rfl).2.1
  | passes hc => cases (h.stand hc rfl).2.1
  | looks hc => exact quiet rfl rfl rfl (h.goesOn hc rfl rfl ⟨(h.stand hc rfl).2.1, trivial⟩)
  | joins hc =>
    refine quiet rfl rfl rfl (Apart.goesOn (h.of_calls rfl) hc rfl rfl ?_)
    exact ⟨(h.stand hc rfl).2.1, trivial⟩
  | enters hc hi =>
    rename_i i seen d
    obtain rfl : d = .login := (h.stand hc rfl).2.1
    have hadmitted : a.admitted m env .login seen = .presenting := by simp [admitted, hm]
    have hclosed := isOpen_of_head hline hc hi rfl
    obtain ⟨hgranted, hposted⟩ := h.resting hclosed
    rw [hadmitted]
    simp only [grants_append, posts_append, recordings_append]
    refine h.advances hc rfl (fun j c' hj _ => hclosed j c' hj) (fun j hj => ?_)
      (List.subset_append_left ..) (fun hopen => by cases hopen) ⟨rfl, ?_, ?_⟩
    · simpa [grants] using hj
    · rw [hgranted]
      simp [grants, recordings]
    · rw [hposted]
      simp [posts, recordings]
  | sends hc hr =>
    rename_i i d r
    obtain ⟨hlogin, hgranted, hposted⟩ := (h.stand hc rfl).2
    have hreachable : reachable = true := by rw [← hready env.files, hr]; rfl
    refine h.advances hc rfl (isOpen_of_holds hline hc rfl) (fun j hj => .inl ?_)
      (by simp) (fun hopen => by cases hopen) ⟨hlogin, ?_, ?_⟩
    · simpa [grants] using hj
    · simpa [grants, recordings] using hgranted
    · simp only [posts_append, recordings_append, hposted, hreachable]
      simp [posts, recordings, postsOf]
  | lacks hc hf =>
    rename_i i d f
    obtain ⟨hlogin, hgranted, hposted⟩ := (h.stand hc rfl).2
    have hreachable : reachable = false := by rw [← hready env.files, hf]; rfl
    refine h.advances hc rfl (isOpen_of_holds hline hc rfl) (fun j hj => .inl ?_)
      (by simp) (fun hopen => by cases hopen) ⟨hlogin, ?_, ?_⟩
    · simpa [grants] using hj
    · simpa [grants, recordings] using hgranted
    · simp only [posts_append, recordings_append, hposted, hreachable]
      simp [posts, postsOf]
  | hears reply hc => exact quiet rfl rfl rfl (h.goesOn hc rfl rfl (h.stand hc rfl).2)
  | records hc =>
    rename_i i d o
    obtain ⟨hlogin, hgranted, hposted⟩ := (h.stand hc rfl).2
    obtain rfl : d = .login := hlogin
    refine Apart.advances (h.of_calls rfl) hc rfl (isOpen_of_holds (a := a) hline hc rfl)
      (fun j hj => .inl ?_) (by simp) (fun _ => ⟨?_, ?_⟩) ⟨rfl, env.now, o, ?_, rfl⟩
    · simpa [grants] using hj
    · simpa [grants, recordings] using hgranted
    · simpa [posts, recordings] using hposted
    · simp [recordings]
  | leaves hc =>
    refine quiet rfl rfl rfl (Apart.goesOn (h.of_calls rfl) hc rfl rfl ?_)
    exact (h.stand hc rfl).2
  | turns hc => cases (h.stand hc rfl).2.2
  | reads hc => cases (h.stand hc rfl).2.2

/-! ### A whole run -/

/-- How the logins stay apart, with what makes this last. -/
structure Parting (base : Authenticator) (reachable : Bool) (a : Authenticator)
    (past : List Notice) : Prop where
  /-- The line and the phases agree. -/
  orderly : Orderly a
  /-- Exchanges are recorded in turn. -/
  inTurn : InTurn a.calls (grants past) ((recordings past).map Prod.fst)
  /-- The logins are apart. -/
  apart : Apart base reachable a (grants past) (posts past) (recordings past)

/-- **Logins stay apart in every run.** -/
theorem parting_run (hm : m.joins = false) (hready : ∀ files, (m.prepare files).isOk = reachable)
    (hbase : AtRest base) {events : List (Surroundings × Event)}
    (hevents : ∀ x ∈ events, x.2.isOfLogins = true) :
    Parting base reachable (base.run m events).1 (base.run m events).2 := by
  refine run_induction (fun a past => Parting base reachable a past) ?_
    ⟨hbase.orderly, hbase.inTurn, hbase.apart reachable⟩
  rintro env e hx a b past new hchange h
  exact ⟨h.orderly.step hchange, h.inTurn.step h.orderly hchange,
    h.apart.step hm hready h.orderly (hevents _ hx) hchange⟩

/-- At the end every login has had the guard, exchanged something, and been told what came of it. -/
structure Ended (base : Authenticator) (reachable : Bool) (n : Nat) (a : Authenticator)
    (past : List Notice) : Prop where
  /-- Every login has had the guard, once. -/
  perm : (grants past).Perm (List.range' base.calls.size n)
  /-- The exchanges were recorded in that order. -/
  recorded : (recordings past).map Prod.fst = grants past
  /-- The requests were sent in that order. -/
  sent : posts past = postsOf reachable (grants past)
  /-- Every login was told what came of its own exchange. -/
  answered : ∀ r ∈ recordings past, a.calls[r.1]? = some ⟨.login, .finished (.issued r.2.2)⟩

/-- **When all logins are over, each has had an exchange of its own.** -/
theorem Parting.ended (h : Parting base reachable a past) {n : Nat}
    (hover : Everywhere (fun phase => phase.isOver = true) a)
    (hsize : a.calls.size = base.calls.size + n) : Ended base reachable n a past := by
  obtain ⟨hgranted, hposted⟩ := h.apart.resting fun i c hc => (Phase.of_isOver (hover i c hc)).2.2.1
  -- a login that is over has recorded what it was told
  have finished : ∀ {i : Nat} {c : Call}, a.calls[i]? = some c → base.calls.size ≤ i →
      ∃ time o, (i, time, o) ∈ recordings past ∧ c = ⟨.login, .finished (.issued o)⟩ := by
    rintro i ⟨d, phase⟩ hc hle
    obtain ⟨hlogin, hphase⟩ := h.apart.stands i _ hc hle
    obtain rfl : d = .login := hlogin
    have hend := hover i _ hc
    cases phase with
    | finished answer =>
      obtain ⟨time, o, hmem, rfl⟩ := hphase
      exact ⟨time, o, hmem, rfl⟩
    | cancelled => exact hphase.elim
    | _ => cases hend
  refine ⟨?_, hgranted.symm, by rw [hgranted]; exact hposted, ?_⟩
  · refine (List.perm_ext_iff_of_nodup h.inTurn.nodup List.nodup_range').mpr fun i => ?_
    rw [List.mem_range'_1]
    constructor
    · intro hmem
      obtain ⟨c, hc, -⟩ := h.inTurn.past i hmem
      have hlt := (Array.getElem?_eq_some_iff.mp hc).1
      exact ⟨h.apart.fresh i hmem, by omega⟩
    · rintro ⟨hle, hlt⟩
      obtain ⟨time, o, hmem, -⟩ :=
        finished (Array.getElem?_eq_getElem (show i < a.calls.size by omega)) hle
      rw [hgranted]
      exact List.mem_map_of_mem hmem
  · rintro ⟨i, time, o⟩ hmem
    have hi : i ∈ grants past := hgranted ▸ List.mem_map_of_mem hmem
    obtain ⟨c, hc, -⟩ := h.inTurn.past i hi
    obtain ⟨time', o', hmem', rfl⟩ := finished hc (h.apart.fresh i hi)
    have hnodup : ((recordings past).map Prod.fst).Nodup := hgranted ▸ h.inTurn.nodup
    rw [List.inj_on_of_nodup_map hnodup hmem hmem' rfl]
    exact hc

/-- **Logins that renew a token are not joined.** Any number of them, however they begin and go on,
are over after at most eight steps each. Never are two requests under way at once, but every login
sends one, in the order in which they got the guard, and returns what came of its own: the `p`-th of
them what the `p`-th exchange came to. So there are as many requests as logins, whether or not an
exchange succeeds before the last. -/
theorem separate_logins {server : Url} {token : String} {ttl : UInt64} {threshold : Span} {n : Nat}
    {script : Nat → Except Failure Issued} (hm : m = .renewal server token ttl threshold)
    (hbase : AtRest base) {events : List (Surroundings × Event)}
    (hevents : ∀ x ∈ events, x.2.isOfLogins = true)
    (hn : (base.run m events).1.calls.size = base.calls.size + n)
    (hfollows : Follows script (recordings (base.run m events).2))
    (hstill : Still (base.run m events).1) :
    let a := (base.run m events).1
    let notices := (base.run m events).2
    let order := grants notices
    (∀ before, before <+: events → ∀ i j, ((base.run m before).1.pending? i).isSome →
        ((base.run m before).1.pending? j).isSome → i = j) ∧
      moves m base events ≤ 8 * n ∧
      order.Perm (List.range' base.calls.size n) ∧
      (recordings notices).map Prod.fst = order ∧
      posts notices = (if Login.canRenew server token then order else []) ∧
      (∀ (p i : Nat), order[p]? = some i →
        a.calls[i]? = some ⟨.login, .finished (.issued (script p))⟩) ∧
      (Login.canRenew server token = true → (posts notices).length = n) := by
  subst hm
  have hmoves := moves_le (.renewal server token ttl threshold) base events
  rw [hbase.stepsLeft, hn] at hmoves
  have h := parting_run (m := .renewal server token ttl threshold) rfl
    (Method.isOk_prepare_renewal server token ttl threshold) hbase hevents
  have hover : Everywhere (fun phase => phase.isOver = true) _ := fun i c hc =>
    h.orderly.isOver_of_still (fun i => (hstill i).1) (fun i => (hstill i).2) hc
  have hended := h.ended hover hn
  refine ⟨fun before _ i j => (orderly_run hbase.orderly _ before).eq_of_pending, by omega,
    hended.perm, hended.recorded, hended.sent, fun p i hp => ?_, fun hrenew => ?_⟩
  · rw [← hended.recorded, List.getElem?_map, Option.map_eq_some_iff] at hp
    obtain ⟨r, hr, rfl⟩ := hp
    rw [← hfollows p r hr]
    exact hended.answered r (List.mem_of_getElem? hr)
  · have hlength := hended.perm.length_eq
    rw [List.length_range'] at hlength
    rw [hended.sent, hrenew, postsOf, if_pos rfl, hlength]

/-! ### Two logins -/

/-- Two logins begin and look before the first reply; then each has its turn. -/
def twoLogins : List (Surroundings × Event) :=
  pairEvents [.begin .login, .begin .login, .advance 0, .advance 1, .advance 0, .advance 1,
    .advance 0, .advance 0, .reply 0 (renewedAs "a"), .advance 0, .advance 0, .advance 1,
    .advance 1, .reply 1 (renewedAs "b"), .advance 1, .advance 1]

/-- **The second of two logins sends a request of its own** although the first one, which it waited
for, has succeeded, and it does not return what the first one does. -/
theorem second_login_sends :
    posts (initial.run serviceMethod twoLogins).2 = [0, 1] ∧
      (initial.run serviceMethod twoLogins).1.returned? 0 = some ⟨"a", some 3600⟩ ∧
      (initial.run serviceMethod twoLogins).1.returned? 1 = some ⟨"b", some 3600⟩ := by
  decide +kernel

/-- What comes of the exchanges of two logins. -/
def twoScript : Nat → Except Failure Issued :=
  scriptOf (recordings (initial.run serviceMethod twoLogins).2) (.ok ⟨"b", some 3600⟩)

theorem follows_twoScript :
    Follows twoScript (recordings (initial.run serviceMethod twoLogins).2) :=
  follows_scriptOf _ _

theorem two_still : Still (initial.run serviceMethod twoLogins).1 :=
  still_of_lt (by decide +kernel)

/-- Both of two logins send their requests, one after the other. -/
theorem separate_logins_two : posts (initial.run serviceMethod twoLogins).2 = [0, 1] := by
  have hrest : AtRest initial := ⟨rfl, fun i c hc => by simp [initial] at hc⟩
  have h := separate_logins (m := serviceMethod) (n := 2) rfl hrest (by decide)
    (by decide +kernel) follows_twoScript two_still
  have horder : grants (initial.run serviceMethod twoLogins).2 = [0, 1] := by decide +kernel
  rw [h.2.2.2.2.1, if_pos (by decide +kernel), horder]

end Authenticator

end VaultTokens
