import VaultTokens.Proofs.StartupFailure

/-!
# The first login of a startup

A startup with a Kubernetes strategy begins with a login, and nothing else happens before that login
is over. `FirstCourse` follows it through its phases: it sends one request, and if it succeeds, it
does so with the reply to that request. Then the startup launches its services, and from then on it
has nothing to do with what happens to them.

## Main results

* `Login.lease_of_conclude` — the lease of a token is the one that its reply tells
* `Attempt.earned` — a first login succeeds with the reply to the one request it sent
* `Attempt.exists_launch` — a startup launches when its first login has succeeded
* `run_inner_of_past` — after that, only the services go on
-/

namespace VaultTokens

/-! ### What a launch leaves alone -/

namespace Startup

variable {st : Startup} {env : Surroundings}

theorem setup_launch (env : Surroundings) (st : Startup) (issued : Option Issued) :
    (st.launch env issued).setup = st.setup := by
  rw [launch]
  split <;> rfl

theorem settings_launch (env : Surroundings) (st : Startup) (issued : Option Issued) :
    (st.launch env issued).services.settings = st.services.settings := by
  rw [launch]
  split <;> rfl

theorem provider?_launch (env : Surroundings) (st : Startup) (issued : Option Issued)
    (p : Exchanger) : (st.launch env issued).services.provider? p = st.services.provider? p := by
  rw [launch]
  split <;> rcases p with (_ | _) | n <;> rfl

theorem schedulers_launch (env : Surroundings) (st : Startup) (issued : Option Issued) :
    (st.launch env issued).services.schedulers
      = schedulers st.setup st.reports env.moment issued := by
  rw [launch]
  split <;> rfl

theorem setup_begin {setup : Setup} {reports : Bool} (h : begin setup reports env = .ok st) :
    st.setup = setup := by
  obtain ⟨s, -, -, -, ⟨-, rfl⟩ | ⟨k, account, threshold, -, -, rfl⟩⟩ := begin_eq_ok h
  · exact setup_launch ..
  · rfl

/-- Whether the first login of a startup is behind it: health is checked, or the services are up. -/
def Stage.isPast : Stage → Bool
  | .checking _ | .started => true
  | .loggingIn _ | .failed _ => false

theorem isPast_launch (env : Surroundings) (st : Startup) (issued : Option Issued) :
    (st.launch env issued).stage.isPast = true := by
  rw [launch]
  split <;> rfl

theorem isPast_proceed (h : st.stage.isPast = true) (env : Surroundings) :
    (st.proceed env).stage.isPast = true ∧ (st.proceed env).setup = st.setup ∧
      (st.proceed env).reports = st.reports ∧ (st.proceed env).services = st.services := by
  rw [Startup.proceed]
  split
  · rename_i hstage
    rw [hstage] at h
    cases h
  · split
    · exact ⟨rfl, rfl, rfl, rfl⟩
    · exact ⟨h, rfl, rfl, rfl⟩
  · exact ⟨h, rfl, rfl, rfl⟩
  · exact ⟨h, rfl, rfl, rfl⟩

theorem run_append (st : Startup) (before after : List (Surroundings × Event)) :
    st.run (before ++ after) = (((st.run before).1.run after).1,
      (st.run before).2 ++ ((st.run before).1.run after).2) := by
  induction before generalizing st with
  | nil => rfl
  | cons x rest ih =>
    obtain ⟨env, e⟩ := x
    rw [List.cons_append, Startup.run, Startup.run]
    simp only [ih, List.append_assoc]

end Startup

/-! ### The lease that a login is told -/

/-- The lease that a document reports in seconds; zero if it reports none. -/
def Issued.reported (node : Json.Node) : UInt64 :=
  match Json.record? ["auth"] node with
  | some [some auth] =>
    match Json.record? ["client_token", "lease_duration"] auth with
    | some [_, some seconds] => seconds.word?.getD 0
    | _ => 0
  | _ => 0

/-- A token never expires if its lease is reported as zero, or not at all. -/
theorem Issued.lease_of_ofNode? {node : Json.Node} {issued : Issued}
    (h : Issued.ofNode? node = some issued) :
    issued.lease = if reported node = 0 then none else some (reported node) := by
  unfold ofNode? at h
  unfold reported
  split at h
  · split at h
    · rename_i hauth _ token htoken
      obtain ⟨t, -, rfl⟩ := Option.map_eq_some_iff.mp h
      simp only [hauth, htoken, if_true]
    · rename_i hauth _ token seconds hparts
      simp only [Option.bind_eq_bind, Option.bind_eq_some_iff, Option.pure_def] at h
      obtain ⟨t, -, n, hn, hissued⟩ := h
      simp only [← Option.some.inj hissued, hauth, hparts, hn, Option.getD_some]
    · cases h
  · cases h

namespace Login

/-- The lease that a reply reports in seconds; zero if it reports none. -/
def told : Reply → UInt64
  | .lost => 0
  | .response _ body => ((Http.document? body).map Issued.reported).getD 0

theorem lease_of_conclude {w : Words} {url : Url} {reply : Reply} {issued : Issued}
    (h : conclude w url reply = .ok issued) :
    issued.lease = if told reply = 0 then none else some (told reply) := by
  cases reply with
  | lost => cases h
  | response status body =>
    rw [conclude] at h
    split at h
    · split at h
      · rename_i issued' hnode
        obtain rfl := Except.ok.inj h
        obtain ⟨node, hdocument, hissued⟩ := Option.bind_eq_some_iff.mp hnode
        rw [told, hdocument]
        exact Issued.lease_of_ofNode? hissued
      · cases h
    · cases h

end Login

/-! ### The course of a first login -/

namespace Authenticator

variable {m : Method} {env : Surroundings} {a b : Authenticator} {e : Event}
  {past new : List Notice}

/-- The requests that have been sent. -/
def requests (notices : List Notice) : List Request :=
  notices.filterMap fun n =>
    match n with
    | .sent _ request => some request
    | _ => none

theorem requests_append (past new : List Notice) :
    requests (past ++ new) = requests past ++ requests new := List.filterMap_append ..

/-- A login has come to a token through the one request that was sent, if it has come to one. -/
def EarnedBy (m : Method) (sent : List Request) (outcome : Except Failure Issued) : Prop :=
  ∀ issued, outcome = .ok issued → ∃ files r reply, sent = [r] ∧ m.prepare files = .ok r ∧
    m.conclude r reply = .ok issued

/-- What a first login has sent in each of its phases, when so many exchanges are recorded. -/
def FirstCourse (m : Method) (recorded : Nat) (sent : List Request) : Phase → Prop
  | .begun => recorded = 0 ∧ sent = []
  | .arriving seen | .waiting seen => recorded = 0 ∧ sent = [] ∧ seen = 0
  | .presenting => sent = []
  | .exchanging r => sent = [r] ∧ ∃ files, m.prepare files = .ok r
  | .recording outcome | .leaving (some (.issued outcome)) | .finished (.issued outcome) =>
    EarnedBy m sent outcome
  | .leaving none | .leaving (some (.token _)) | .reading | .finished (.token _) | .cancelled =>
    False

/-- A login is under way by itself, and this is how far it has come. -/
def FirstLogin (m : Method) (a : Authenticator) (past : List Notice) : Prop :=
  ∃ phase, a.calls = #[⟨.login, phase⟩] ∧ FirstCourse m a.recorded (requests past) phase

theorem eq_of_single {c c' : Call} {i : Nat} (hcalls : a.calls = #[c])
    (hc : a.calls[i]? = some c') : i = 0 ∧ c' = c := by
  rw [hcalls] at hc
  cases i with
  | zero => exact ⟨rfl, (Option.some.inj hc).symm⟩
  | succ i => cases hc

/-- Nobody has won a token before the first login. -/
theorem admitted_first (m : Method) (env : Surroundings) (h : a.recorded = 0) :
    a.admitted m env .login 0 = .presenting := by
  have hnone : a.succeededSince 0 = none := by rw [succeededSince, h, if_pos (Or.inl rfl)]
  simp only [admitted, hnone, ite_self]

/-- The phase of the one call, if an event is about it, and what its next phase has to be. -/
theorem FirstLogin.enter (h : FirstLogin m a past) {i : Nat} {d : Demand} {phase next : Phase}
    (hc : a.calls[i]? = some ⟨d, phase⟩) {line : List Nat} {standing : Standing} {recorded : Nat}
    (hnext : d = .login → FirstCourse m a.recorded (requests past) phase →
      FirstCourse m recorded (requests (past ++ new)) next) :
    FirstLogin m (({ a with line, standing, recorded } : Authenticator).enter i next)
      (past ++ new) := by
  obtain ⟨phase', hcalls, hcourse⟩ := h
  obtain ⟨rfl, hsame⟩ := eq_of_single hcalls hc
  obtain ⟨rfl, rfl⟩ := Call.mk.inj hsame
  refine ⟨next, ?_, hnext rfl hcourse⟩
  rw [Authenticator.enter, hcalls]
  rfl

theorem FirstLogin.step (h : FirstLogin m a past) (hchange : Change m env a e b new)
    (he : e.isStepOrReply = true) : FirstLogin m b (past ++ new) := by
  have silent : requests new = [] → requests (past ++ new) = requests past := by
    intro hnew
    rw [requests_append, hnew, List.append_nil]
  cases hchange with
  | nothing =>
    rw [List.append_nil]
    exact h
  | begins | yields => cases he
  | serves hc | passes hc => exact h.enter hc fun hd _ => nomatch hd
  | looks hc =>
    refine h.enter hc fun _ ⟨hrecorded, hsent⟩ => ?_
    rw [silent rfl]
    exact ⟨hrecorded, hsent, hrecorded⟩
  | joins hc =>
    refine h.enter hc fun _ hcourse => ?_
    rw [silent rfl]
    exact hcourse
  | enters hc =>
    refine h.enter hc fun hd ⟨hrecorded, hsent, hseen⟩ => ?_
    rw [hd, hseen, admitted_first m env hrecorded, silent rfl]
    exact hsent
  | sends hc hr =>
    refine h.enter hc fun _ hsent => ⟨?_, _, hr⟩
    rw [requests_append, show requests past = [] from hsent]
    rfl
  | lacks hc => exact h.enter hc fun _ _ issued hissued => by cases hissued
  | hears reply hc =>
    refine h.enter hc fun _ ⟨hsent, files, hr⟩ => ?_
    rw [silent rfl]
    exact fun issued hissued => ⟨files, _, reply, hsent, hr, hissued⟩
  | records hc =>
    refine h.enter hc fun hd hcourse => ?_
    rw [hd, silent rfl]
    exact hcourse
  | leaves hc =>
    rename_i answer
    refine h.enter hc fun _ hcourse => ?_
    rw [silent rfl]
    cases answer with
    | issued => exact hcourse
    | token => exact hcourse.elim
  | turns hc | reads hc => exact h.enter hc fun _ hcourse => hcourse.elim

theorem firstLogin_login (m : Method) (env : Surroundings) {own : List (Surroundings × Event)}
    (hown : ∀ x ∈ own, x.2.isStepOrReply = true) :
    FirstLogin m (login m env own).1 (login m env own).2 := by
  rw [login, run_cons]
  refine run_induction (FirstLogin m) ?_ ⟨.begun, rfl, rfl, rfl⟩
  intro env' e hmem a b past new hchange h
  exact h.step hchange (hown _ hmem)

end Authenticator

/-! ### From the first login to the launch -/

namespace Services

theorem requests_map (p : Exchanger) (notices : List Authenticator.Notice) :
    requests (notices.map (Notice.within p)) = Authenticator.requests notices := by
  rw [requests, List.filterMap_map, Authenticator.requests]
  refine congrArg (fun f => List.filterMap f notices) (funext fun n => ?_)
  cases n <;> rfl

/-- Whatever a provider sends is a request of its method. -/
theorem exists_prepare_of_sent (s : Services) (events : List (Surroundings × Event))
    {p : Exchanger} {call : Nat} {r : Request}
    (hsent : .within p (.sent call r) ∈ (s.run events).2) :
    ∃ g files, s.provider? p = some g ∧ g.method.prepare files = .ok r := by
  obtain ⟨own, htraces⟩ := traces_run s events p
  have hmem := mem_innards hsent
  rw [htraces.notices] at hmem
  cases hg : s.provider? p with
  | none =>
    rw [hg] at hmem
    cases hmem
  | some g =>
    rw [hg] at hmem
    obtain ⟨files, hr⟩ := Authenticator.prepared_run g.method g.strategy own call r hmem
    exact ⟨g, files, rfl, hr⟩

end Services

namespace Startup

variable {setup : Setup} {reports : Bool} {env : Surroundings} {st : Startup} {m : Method}
  {past : List Services.Notice} {issued : Option Issued}

/-- What happens to the services during a startup. -/
def inner (events : List (Surroundings × Event)) : List (Surroundings × Services.Event) :=
  events.filterMap fun x =>
    match x.2 with
    | .services e => some (x.1, e)
    | .proceed => none

/-- A first login that succeeded has been told its token in reply to the one request it sent. -/
theorem Attempt.earned (h : Attempt m st past) {issued : Issued}
    (hlogin : st.login? = some (.ok issued)) :
    ∃ files r reply, Services.requests past = [r] ∧ m.prepare files = .ok r ∧
      m.conclude r reply = .ok issued := by
  obtain ⟨env, own, hown, hprovider, rfl⟩ := h.login
  obtain ⟨phase, hcalls, hcourse⟩ := Authenticator.firstLogin_login m env hown
  have ha := login?_eq_some.mp hlogin
  rw [Services.answer?, Services.provider?, hprovider, Option.bind_some] at ha
  obtain ⟨d, hc⟩ := Authenticator.answer?_eq_some.mp ha
  obtain ⟨-, hsame⟩ := Authenticator.eq_of_single hcalls hc
  obtain ⟨-, rfl⟩ := Authenticator.Call.mk.inj hsame
  rw [Services.requests_map]
  exact hcourse issued rfl

/-- While the startup takes no step of its own, only the services go on. -/
theorem run_inner_of_past (h : st.stage.isPast = true) (events : List (Surroundings × Event)) :
    (st.run events).1.services = (st.services.run (inner events)).1 ∧
      (st.run events).2 = (st.services.run (inner events)).2 := by
  induction events generalizing st with
  | nil => exact ⟨rfl, rfl⟩
  | cons x rest ih =>
    obtain ⟨env, e⟩ := x
    cases e with
    | services e =>
      obtain ⟨hservices, hnotices⟩ := @ih { st with services := (st.services.step env e).1 } h
      exact ⟨hservices, congrArg _ hnotices⟩
    | proceed =>
      obtain ⟨hpast, -, -, hsame⟩ := isPast_proceed h env
      obtain ⟨hservices, hnotices⟩ := ih hpast
      rw [hsame] at hservices hnotices
      exact ⟨hservices, hnotices⟩

/-- The first login of a startup has succeeded after some events, and nothing else has happened by
then. -/
structure LoggedIn (m : Method) (st : Startup) (past : List Services.Notice)
    (before : List (Surroundings × Event)) (issued : Issued) : Prop where
  /-- The first login was still under way. -/
  attempt : Attempt m (st.run before).1 (past ++ (st.run before).2)
  /-- Only the services have gone on. -/
  services : (st.run before).1 = { st with services := (st.services.run (inner before)).1 }
  /-- It has succeeded. -/
  login : (st.run before).1.login? = some (.ok issued)
  /-- Up to then there was no scheduler and no errand. -/
  alone : ∀ front, front <+: before →
    (st.run front).1.services.schedulers = [] ∧ (st.run front).1.services.tasks = #[]

theorem LoggedIn.cons_services {before : List (Surroundings × Event)} {issued : Issued}
    {e : Services.Event} (h : Attempt m st past)
    (hrest : LoggedIn m { st with services := (st.services.step env e).1 }
      (past ++ (st.services.step env e).2) before issued) :
    LoggedIn m st past ((env, .services e) :: before) issued := by
  refine ⟨?_, hrest.services, hrest.login, fun front hfront => ?_⟩
  · have hattempt := hrest.attempt
    rwa [List.append_assoc] at hattempt
  · rcases List.prefix_cons_iff.mp hfront with rfl | ⟨more, rfl, hmore⟩
    · exact ⟨h.schedulers, h.tasks⟩
    · exact hrest.alone more hmore

theorem LoggedIn.cons_proceed {before : List (Surroundings × Event)} {issued : Issued}
    (h : Attempt m st past) (hstill : st.proceed env = st)
    (hrest : LoggedIn m st past before issued) :
    LoggedIn m st past ((env, .proceed) :: before) issued := by
  have hrun : ∀ more, st.run ((env, .proceed) :: more) = st.run more := by
    intro more
    show ((Startup.run (st.proceed env) more).1, [] ++ (Startup.run (st.proceed env) more).2) = _
    rw [hstill]
    rfl
  refine ⟨by rw [hrun]; exact hrest.attempt, by rw [hrun]; exact hrest.services,
    by rw [hrun]; exact hrest.login, fun front hfront => ?_⟩
  rcases List.prefix_cons_iff.mp hfront with rfl | ⟨more, rfl, hmore⟩
  · exact ⟨h.schedulers, h.tasks⟩
  · rw [hrun]
    exact hrest.alone more hmore

/-- **A startup launches when its first login has succeeded**, and until then nothing else has
happened. -/
theorem Attempt.exists_launch (h : Attempt m st past) (hstage : st.stage = .loggingIn 0)
    {events : List (Surroundings × Event)} (hown : ∀ x ∈ events, x.2.isOwn = true)
    (hpast : (st.run events).1.stage.isPast = true) :
    ∃ before env after issued, events = before ++ (env, .proceed) :: after ∧
      LoggedIn m st past before issued := by
  induction events generalizing st past with
  | nil =>
    rw [Startup.run, hstage] at hpast
    cases hpast
  | cons x rest ih =>
    obtain ⟨env, e⟩ := x
    have hrest : ∀ x ∈ rest, x.2.isOwn = true := fun x hx => hown x (List.mem_cons_of_mem _ hx)
    have he : e.isOwn = true := hown _ List.mem_cons_self
    cases e with
    | services e =>
      obtain ⟨before, env', after, issued, rfl, hlogged⟩ := ih (h.own he env) hstage hrest hpast
      exact ⟨_ :: before, env', after, issued, rfl, .cons_services h hlogged⟩
    | proceed =>
      cases hlogin : st.login? with
      | none =>
        have hstill : st.proceed env = st := by
          rw [Startup.proceed, hstage]
          simp only
          split
          · rename_i ha
            cases hlogin.symm.trans (login?_eq_some.mpr ha)
          · rename_i ha
            cases hlogin.symm.trans (login?_eq_some.mpr ha)
          · rfl
        have hpast' : (Startup.run (st.proceed env) rest).1.stage.isPast = true := hpast
        rw [hstill] at hpast'
        obtain ⟨before, env', after, issued, rfl, hlogged⟩ := ih h hstage hrest hpast'
        exact ⟨_ :: before, env', after, issued, rfl, .cons_proceed h hstill hlogged⟩
      | some result =>
        cases result with
        | ok issued =>
          refine ⟨[], env, rest, issued, rfl, ⟨?_, rfl, hlogin, fun front hfront => ?_⟩⟩
          · rw [Startup.run, List.append_nil]
            exact h
          · rw [List.prefix_nil.mp hfront]
            exact ⟨h.schedulers, h.tasks⟩
        | error f =>
          have hfailed := h.proceed_of_error hlogin env
          have hattempt : Attempt m (st.proceed env) past := by
            rcases h.proceed env with h' | h'
            · exact h'
            · exact absurd hfailed (h'.not_failed _)
          have hpast' : (Startup.run (st.proceed env) rest).1.stage.isPast = true := hpast
          rw [hattempt.run_of_failed hfailed hrest, hfailed] at hpast'
          cases hpast'

end Startup

end VaultTokens
