import VaultTokens.Proofs.CallCourse
import VaultTokens.Proofs.DocumentParts
import VaultTokens.Proofs.SharedLogin

/-!
# The token of a strategy that renews it

A strategy that renews its token in place serves the token that it was set up with, and no event
changes that. Its lease comes from elsewhere: it is that of the last success, with the token that
the answer to that renewal named. So the two agree as long as the server names the token that it was
asked to renew, and no longer.

How they come to agree is shown in two steps. `ServesOwn` is what every event preserves of the calls
for the token. `Leases` is what it preserves of the lease, for any kind of token to which all
answers belong; it must speak of the exchanges too that are over and not yet recorded.

## Main results

* `Login.conclude_eq_ok_iff` — which replies are the answer to a login
* `ServesOwn.step`, `ServesOwn.run` — the token that is served
* `Leases.step`, `leases_run` — the token that is leased
* `renewed_tokens` — when the two agree
-/

namespace VaultTokens

open Json

/-! ### Answers to logins -/

/-- A document is the answer to a login, with the token that it issues. -/
def Login.IsAnswer (node : Node) (issued : Issued) : Prop :=
  ∃ auth literal seconds,
    Parts ["auth"] node [some auth] ∧
      Parts ["client_token", "lease_duration"] auth [some (.string literal), seconds] ∧
        Means literal issued.token.toList ∧
          ((seconds = none ∧ issued.lease = none) ∨
            ∃ n : UInt64, seconds = some (.number (Nat.toDigits 10 n.toNat)) ∧
              issued.lease = if n = 0 then none else some n)

/-- A document is read as a login if and only if it is the answer to one. -/
theorem Issued.ofNode?_eq_some_iff {node : Node} (h : Denoted node) {issued : Issued} :
    Issued.ofNode? node = some issued ↔ Login.IsAnswer node issued := by
  obtain ⟨token, lease⟩ := issued
  constructor
  · intro hissued
    rw [Issued.ofNode?] at hissued
    split at hissued
    rotate_left
    · cases hissued
    rename_i auth hauth
    have hauth := (record?_eq_some_iff h).mp hauth
    have hd : Denoted auth := hauth.denoted h (by simp)
    split at hissued
    · rename_i part hparts
      have hparts := (record?_eq_some_iff hd).mp hparts
      obtain ⟨text, htext, heq⟩ := Option.map_eq_some_iff.mp hissued
      obtain ⟨rfl, rfl⟩ := Issued.mk.inj heq
      obtain ⟨literal, rfl, hmeans⟩ :=
        (Node.text?_eq_some_iff (hparts.denoted hd (by simp))).mp htext
      exact ⟨auth, literal, none, hauth, hparts, hmeans, .inl ⟨rfl, rfl⟩⟩
    · rename_i part seconds hparts
      have hparts := (record?_eq_some_iff hd).mp hparts
      simp only [Option.bind_eq_bind, Option.bind_eq_some_iff, Option.pure_def,
        Option.some.injEq, Issued.mk.injEq] at hissued
      obtain ⟨text, htext, n, hn, rfl, rfl⟩ := hissued
      obtain ⟨literal, rfl, hmeans⟩ :=
        (Node.text?_eq_some_iff (hparts.denoted hd (by simp))).mp htext
      obtain rfl := (Node.word?_eq_some_iff (hparts.denoted hd (by simp))).mp hn
      exact ⟨auth, literal, _, hauth, hparts, hmeans, .inr ⟨n, rfl, rfl⟩⟩
    · cases hissued
  · rintro ⟨auth, literal, seconds, hauth, hparts, hmeans, hseconds⟩
    have hd : Denoted auth := hauth.denoted h (by simp)
    have htext := (Node.text?_eq_some_iff (hparts.denoted hd (by simp))).mpr ⟨literal, rfl, hmeans⟩
    rw [Issued.ofNode?, (record?_eq_some_iff h).mpr hauth]
    simp only [(record?_eq_some_iff hd).mpr hparts]
    rcases hseconds with ⟨rfl, hlease⟩ | ⟨n, rfl, hlease⟩
    · obtain rfl : lease = none := hlease
      simp only [htext, Option.map_some]
    · obtain rfl : lease = if n = 0 then none else some n := hlease
      have hn := (Node.word?_eq_some_iff (n := n) (hparts.denoted hd (by simp))).mpr rfl
      simp only [htext, hn, Option.bind_eq_bind, Option.bind_some]
      rfl

/-- **An exchange succeeds if and only if its reply carries the answer to a login.** -/
theorem Login.conclude_eq_ok_iff {w : Login.Words} {url : Url} {reply : Reply} {issued : Issued} :
    Login.conclude w url reply = .ok issued ↔
      ∃ node, reply.Carries node ∧ Login.IsAnswer node issued := by
  cases reply with
  | lost => simp [Reply.not_carries_lost]
  | response status body =>
    cases hstatus : Http.isSuccess status with
    | false => simp [Login.conclude_status hstatus, Reply.not_carries_response hstatus]
    | true =>
      rw [Login.conclude, if_pos hstatus]
      simp only [Reply.carries_response_iff hstatus]
      constructor
      · intro h
        split at h
        · rename_i found hfound
          obtain rfl := Except.ok.inj h
          obtain ⟨node, hnode, hissued⟩ := Option.bind_eq_some_iff.mp hfound
          exact ⟨node, hnode,
            (Issued.ofNode?_eq_some_iff (Http.denoted_of_document? hnode)).mp hissued⟩
        · cases h
      · rintro ⟨node, hnode, hanswer⟩
        rw [hnode, Option.bind_some,
          (Issued.ofNode?_eq_some_iff (Http.denoted_of_document? hnode)).mpr hanswer]

/-- There is a request with a token exactly if the token can be sent along and the request can be
made, whatever it says. -/
theorem Login.isOk_post_some (w : Login.Words) (endpoint token body : String) :
    (Login.post w endpoint (some token) body).isOk
      = (Login.canSend endpoint && Http.isHeaderValue token) := by
  rw [Login.post, Login.canSend]
  cases Url.Locator.parse? endpoint with
  | none => rfl
  | some target =>
    cases target with
    | foreign url => rfl
    | server url =>
      simp only [Login.prepare, Http.ready]
      by_cases htarget : Http.isTarget url = true <;>
        by_cases htoken : Http.isHeaderValue token = true <;>
          simp [htarget, htoken, Except.isOk, Except.toBool]

/-- Whether a renewal of the token can be asked for at all. -/
def Login.canRenew (server : Url) (token : String) : Bool :=
  Login.canSend (Login.renewalEndpoint server) && Http.isHeaderValue token

/-- A renewal is prepared exactly if it can be asked for. -/
theorem Method.isOk_prepare_renewal (server : Url) (token : String) (ttl : UInt64)
    (threshold : Span) (files : FileTree) :
    ((Method.renewal server token ttl threshold).prepare files).isOk
      = Login.canRenew server token := by
  rw [Method.prepare, Login.isOk_post_some, Login.canRenew]

namespace Authenticator

variable {m : Method} {env : Surroundings} {a b : Authenticator} {e : Event}
  {past new : List Notice} {i : Nat} {c : Call} {token : String}

/-! ### The token that is served without an exchange -/

/-- A call for the token goes no other way than to be answered with the strategy's own. -/
def ServesOwn (token : String) (a : Authenticator) : Prop :=
  ∀ (i : Nat) (phase : Phase), a.calls[i]? = some ⟨.token, phase⟩ →
    phase = .begun ∨ phase = .cancelled ∨ phase = .finished (.token (.ok token))

theorem ServesOwn.enter {phase : Phase} (h : ServesOwn token a) (hc : a.calls[i]? = some c)
    (hphase : c.demand = .token →
      phase = .begun ∨ phase = .cancelled ∨ phase = .finished (.token (.ok token))) :
    ServesOwn token (a.enter i phase) := by
  intro j next hj
  obtain ⟨rfl, heq⟩ | ⟨-, hj⟩ := calls_enter_cases hc hj
  · obtain ⟨hdemand, rfl⟩ := Call.mk.inj heq
    exact hphase hdemand.symm
  · exact h j next hj

/-- A strategy with a token of its own answers a call for it at once. -/
theorem step_own (hm : m.ownToken = some token) (hc : a.calls[i]? = some ⟨.token, .begun⟩)
    (env : Surroundings) :
    (a.step m env (.advance i)).1 = a.enter i (.finished (.token (.ok token))) := by
  rw [step, advance, hc]
  simp only [hm]
  rfl

/-- **Every event leaves the token that is served.** -/
theorem ServesOwn.step (hm : m.ownToken = some token) (h : ServesOwn token a) (env : Surroundings)
    (e : Event) : ServesOwn token (a.step m env e).1 := by
  -- a call for the token that is under way has only just begun
  have begun : ∀ {i : Nat} {d : Demand} {phase : Phase}, a.calls[i]? = some ⟨d, phase⟩ →
      phase ≠ .begun → phase.isOver = false → d ≠ .token := by
    rintro i d phase hc hne hover rfl
    rcases h i phase hc with hbegun | rfl | rfl
    · exact hne hbegun
    · cases hover
    · cases hover
  have hchange := change_step m env a e
  generalize hstep : a.step m env e = result at hchange ⊢
  obtain ⟨b, new⟩ := result
  cases hchange with
  | nothing => exact h
  | begins d =>
    intro j phase hj
    rw [Array.getElem?_push] at hj
    split at hj
    · exact .inl (Call.mk.inj (Option.some.inj hj)).2.symm
    · exact h j phase hj
  | serves hc hown =>
    obtain rfl := Option.some.inj (hm.symm.trans hown)
    exact h.enter hc fun _ => .inr (.inr rfl)
  | looks hc hd => exact h.enter hc fun htoken => absurd ((hd htoken).1.symm.trans hm) nofun
  | passes hc =>
    rw [← congrArg Prod.fst hstep, step_own hm hc]
    exact h.enter hc fun _ => .inr (.inr rfl)
  | yields hc => exact ServesOwn.enter h hc fun _ => .inr (.inl rfl)
  | joins hc | enters hc | sends hc | lacks hc | hears _ hc | records hc | leaves hc | turns hc
  | reads hc => exact ServesOwn.enter h hc fun htoken => absurd htoken (begun hc nofun rfl)

/-- **Whatever happens, the token that is served stays.** -/
theorem ServesOwn.run (hm : m.ownToken = some token) (h : ServesOwn token a)
    (events : List (Surroundings × Event)) : ServesOwn token (a.run m events).1 := by
  induction events generalizing a with
  | nil => exact h
  | cons x rest ih =>
    obtain ⟨env, e⟩ := x
    rw [run_cons]
    exact ih (h.step hm env e)

theorem servesOwn_initial : ServesOwn token initial := by
  intro i phase hc
  simp [initial] at hc

/-! ### The lease of the last success -/

/-- The standing goes along with the history of what was recorded. -/
theorem reflects_run (m : Method) (events : List (Surroundings × Event)) :
    (initial.run m events).1.standing.Reflects (history (initial.run m events).2) :=
  run_induction (fun a past => a.standing.Reflects (history past))
    (fun _ _ _ _ _ hchange h => hchange.reflects h) Standing.reflects_initial

/-- The lease is of a kind of token, and so is every one that is still to be recorded. -/
structure Leases (kind : String → Prop) (a : Authenticator) : Prop where
  /-- The token of the lease is of the kind. -/
  lease : ∀ lease, a.standing.lease = some lease → kind lease.token
  /-- So are the tokens of exchanges that are over and not recorded. -/
  ending : ∀ (i : Nat) (d : Demand) (issued : Issued),
    a.calls[i]? = some ⟨d, .recording (.ok issued)⟩ → kind issued.token

variable {kind : String → Prop}

theorem leases_initial : Leases kind initial := by
  refine ⟨fun lease hlease => ?_, fun i d issued hc => ?_⟩
  · simp [initial, Standing.initial] at hlease
  · simp [initial] at hc

theorem Leases.enter {phase : Phase} (h : Leases kind a) (hc : a.calls[i]? = some c)
    (hphase : ∀ issued, phase = .recording (.ok issued) → kind issued.token) :
    Leases kind (a.enter i phase) := by
  refine ⟨h.lease, fun j d issued hj => ?_⟩
  obtain ⟨-, heq⟩ | ⟨-, hj⟩ := calls_enter_cases hc hj
  · exact hphase issued (Call.mk.inj heq).2.symm
  · exact h.ending j d issued hj

/-- The lease stays of a kind of token if every answer that the event brings is of it. -/
theorem Leases.step (h : Leases kind a)
    (hreply : ∀ i reply r issued, e = .reply i reply → m.conclude r reply = .ok issued →
      kind issued.token) (hchange : Change m env a e b new) : Leases kind b := by
  cases hchange with
  | nothing => exact h
  | begins d =>
    refine ⟨h.lease, fun j d issued hj => ?_⟩
    rw [Array.getElem?_push] at hj
    split at hj
    · cases hj
    · exact h.ending j d issued hj
  | hears reply hc => exact h.enter hc fun issued ho => hreply _ _ _ _ rfl (Phase.recording.inj ho)
  | lacks hc => exact h.enter hc nofun
  | enters hc =>
    rename_i i seen d hi
    refine h.enter hc fun issued hphase => ?_
    obtain hp | ⟨answer, hp⟩ := admitted_cases m env a d seen <;> rw [hp] at hphase <;> cases hphase
  | records hc =>
    rename_i i d o
    have hleases : Leases kind { a with
        standing := a.standing.record env.now o, recorded := a.recorded + 1 } := by
      refine ⟨fun lease hlease => ?_, h.ending⟩
      cases o with
      | ok issued =>
        obtain rfl := Option.some.inj hlease
        exact h.ending i d issued hc
      | error f => exact h.lease lease hlease
    exact hleases.enter hc (by cases d <;> exact nofun)
  | looks hc | serves hc | passes hc | joins hc | sends hc | leaves hc | turns hc | reads hc
  | yields hc => exact Leases.enter ⟨h.lease, h.ending⟩ hc nofun

/-- **The lease is of a kind of token if every answer is.** -/
theorem leases_run (m : Method) (kind : String → Prop) {events : List (Surroundings × Event)}
    (hreply : ∀ x ∈ events, ∀ i reply r issued, x.2 = .reply i reply →
      m.conclude r reply = .ok issued → kind issued.token) :
    Leases kind (initial.run m events).1 :=
  run_induction (fun a _ => Leases kind a)
    (fun hx _ _ _ _ hchange h => h.step (hreply _ hx) hchange) leases_initial

/-! ### A login that is answered -/

/-- The first login, with the reply to its request, up to its answer. -/
def answeredLogin (env : Surroundings) (reply : Reply) : List (Surroundings × Event) :=
  [.begin .login, .advance 0, .advance 0, .advance 0, .advance 0, .reply 0 reply, .advance 0,
    .advance 0].map (env, ·)

/-- An answered login records the lease of its answer. -/
theorem lease_answeredLogin (hm : m.joins = false) {r : Request}
    (hready : m.prepare env.files = .ok r) {reply : Reply} {issued : Issued}
    (hissued : m.conclude r reply = .ok issued) :
    (initial.run m (answeredLogin env reply)).1.standing.lease
      = some (Lease.grant issued env.now) := by
  simp [answeredLogin, run, step, advance, receive, initial, enter, finish, admitted, hm, hready,
    hissued, afterRecording]

/-- **The token that is served and the lease go apart.** Whatever happens to a strategy that renews
its token, every call for the token that is over was answered with the token it was set up with, and
the lease is that of the last recorded success, with whatever token that issued. So the lease is one
of the served token if and only if the last success issued that token, which is so if all answers
do. But every answer to a login can be the one that a renewal gets, and then the lease is one of
the token in that answer. -/
theorem renewed_tokens (server : Url) (token : String) (ttl : UInt64) (threshold : Span) :
    let m := Method.renewal server token ttl threshold
    (∀ events, let a := (initial.run m events).1
      let past := (initial.run m events).2
      (∀ (i : Nat) (answer : Answer), a.calls[i]? = some ⟨.token, .finished answer⟩ →
          answer = .token (.ok token)) ∧
        (a.standing.lease = (Standing.lastSuccess (history past)).map
          fun (time, issued) => Lease.grant issued time) ∧
        ((∀ lease, a.standing.lease = some lease → lease.token = token) ↔
          ∀ time issued, Standing.lastSuccess (history past) = some (time, issued) →
            issued.token = token) ∧
        ((∀ env i reply node issued, (env, .reply i reply) ∈ events → reply.Carries node →
            Login.IsAnswer node issued → issued.token = token) →
          ∀ lease, a.standing.lease = some lease → lease.token = token)) ∧
      (Login.canRenew server token = true → ∀ env reply node issued, reply.Carries node →
        Login.IsAnswer node issued →
          (initial.run m (answeredLogin env reply)).1.standing.lease
            = some (Lease.grant issued env.now)) := by
  intro m
  refine ⟨fun events => ?_, fun hrenew env reply node issued hcarries hanswer => ?_⟩
  · have hlease := (reflects_run m events).lease
    refine ⟨fun i answer hc => ?_, hlease, ?_, fun hreply => ?_⟩
    · have hserves := ServesOwn.run (m := m) rfl (servesOwn_initial ) events i _ hc
      rcases hserves with h | h | h
      · cases h
      · cases h
      · exact Phase.finished.inj h
    · rw [hlease]
      constructor
      · intro h time issued hlast
        exact h _ (by rw [hlast]; rfl)
      · intro h lease hsome
        obtain ⟨⟨time, issued⟩, hlast, rfl⟩ := Option.map_eq_some_iff.mp hsome
        exact h time issued hlast
    · refine (leases_run m (· = token) fun x hx i reply r issued heq hissued => ?_).lease
      obtain ⟨node, hcarries, hanswer⟩ := Login.conclude_eq_ok_iff.mp hissued
      obtain ⟨env, e⟩ := x
      obtain rfl : e = .reply i reply := heq
      exact hreply env i reply node issued hx hcarries hanswer
  · have hready := Method.isOk_prepare_renewal server token ttl threshold env.files
    rw [hrenew] at hready
    obtain ⟨r, hr⟩ : ∃ r, m.prepare env.files = .ok r := by
      change (m.prepare env.files).isOk = true at hready
      cases hprepare : m.prepare env.files with
      | ok r => exact ⟨r, rfl⟩
      | error f =>
        rw [hprepare] at hready
        cases hready
    exact lease_answeredLogin rfl hr (Login.conclude_eq_ok_iff.mpr ⟨node, hcarries, hanswer⟩)

/-- A strategy that is set up with a token for services. -/
def serviceMethod : Method :=
  .renewal ⟨.http, .absent, .name "vault", some 8200, [[]], none, none⟩ "s.service" 3600
    (Method.thresholdOf 60)

/-- A renewal that is answered with a token. -/
def renewedAs (token : String) : Reply :=
  .response 200 (some (Text.Utf8.encode
    ("\x7b\"auth\":\x7b\"client_token\":\"" ++ token
      ++ "\",\"lease_duration\":3600\x7d\x7d").toList))

/-- The parts of an answer with another token. -/
def otherAuth : Node :=
  .object [("client_token".toList.map some, .string ("other".toList.map some)),
    ("lease_duration".toList.map some, .number (Nat.toDigits 10 3600))]

theorem carries_renewedAs_other :
    (renewedAs "other").Carries (.object [("auth".toList.map some, otherAuth)]) := by
  refine ⟨200, _, rfl, by decide, by decide, ?_⟩
  rw [Text.Utf8.decode_encode, ← parse?_eq_some_iff]
  simp [parse?, scanValue, scanMembers, scanString, skip, isSpace, scanNumber, scanUnsigned,
    scanDigits, scanFraction, scanExponent, otherAuth]
  decide

theorem isAnswer_otherAuth :
    Login.IsAnswer (.object [("auth".toList.map some, otherAuth)]) ⟨"other", some 3600⟩ := by
  refine ⟨otherAuth, _, _, ?_, ?_, means_map_some (by decide), .inr ⟨3600, rfl, rfl⟩⟩
  · exact .object (.cons ⟨means_map_some (by decide), rfl⟩ .nil)
      (.cons (.of_mem List.mem_cons_self (by decide)) .nil)
  · exact .object
      (.cons ⟨means_map_some (by decide), rfl⟩ (.cons ⟨means_map_some (by decide), rfl⟩ .nil))
      (.cons (.of_mem List.mem_cons_self (by decide))
        (.cons (.of_mem (List.mem_cons_of_mem _ List.mem_cons_self) (by decide)) .nil))

/-- Whoever asks for the token gets the one that was set up, and the lease is one of another. -/
theorem lease_of_another_token :
    let a := (initial.run serviceMethod
      (answeredLogin ⟨.epoch, 0, .empty⟩ (renewedAs "other") ++
        [(⟨.epoch, 0, .empty⟩, .begin .token), (⟨.epoch, 0, .empty⟩, .advance 1)])).1
    a.standing.token = some "other" ∧ (a.answer? 1).bind Answer.token? = some "s.service" := by
  decide +kernel

/-- An answer with the served token issues no other. -/
theorem token_of_renewedAs_service {node : Node} {issued : Issued}
    (hcarries : (renewedAs "s.service").Carries node) (hanswer : Login.IsAnswer node issued) :
    issued.token = "s.service" := by
  have hservice : Login.conclude Login.renewalWords
      ⟨.http, .absent, .name "vault", none, [[]], none, none⟩ (renewedAs "s.service")
        = .ok ⟨"s.service", some 3600⟩ := by
    decide +kernel
  rw [Login.conclude_eq_ok_iff.mpr ⟨node, hcarries, hanswer⟩] at hservice
  rw [Except.ok.inj hservice]

/-- What is known after a renewal that is answered with a token. -/
def standingAs (token : String) : Standing :=
  (initial.run serviceMethod (answeredLogin ⟨.epoch, 0, .empty⟩ (renewedAs token))).1.standing

/-- The lease is one of the token in the answer, and so one of the served token if that is in it. -/
theorem renewed_tokens_other :
    (standingAs "other").lease = some (Lease.grant ⟨"other", some 3600⟩ .epoch) ∧
      ∀ lease, (standingAs "s.service").lease = some lease → lease.token = "s.service" := by
  refine ⟨(renewed_tokens _ _ _ _).2 (by decide +kernel) _ _ _ _ carries_renewedAs_other
    isAnswer_otherAuth, ((renewed_tokens _ _ _ _).1 _).2.2.2 ?_⟩
  intro env i reply node issued hmem hcarries hanswer
  simp only [answeredLogin, List.map_cons, List.map_nil, List.mem_cons, Prod.mk.injEq,
    Event.reply.injEq, reduceCtorEq, and_false, or_false, false_or, List.not_mem_nil] at hmem
  obtain ⟨-, -, rfl⟩ := hmem
  exact token_of_renewedAs_service hcarries hanswer

end Authenticator

end VaultTokens
