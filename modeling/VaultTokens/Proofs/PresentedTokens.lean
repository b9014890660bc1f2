import Mathlib.Data.List.Nodup
import VaultTokens.Proofs.JoinedLogins
import VaultTokens.Proofs.StoredTexts
import VaultTokens.Proofs.WrittenDocuments

/-!
# Which service account token a login presents

The file with the service account token is replaced from time to time, and it may be gone or damaged
when a login reads it. What a login presents depends on the file as it is at that moment and on
nothing that happened before. `Presents` says it in terms of the bytes: the text that they encode
without the blanks around it, unless that is nothing; only where they encode no text, or there are
no bytes, the inline token as it was given.

A login that has nothing to present, or whose request cannot be made, sends nothing and fails.
`Unsent` says all that comes of it: the failure is what the login answers, it is recorded once, it
counts as one failure more and leaves the lease as it was.

## Main results

* `ServiceAccount.presents_iff` — what is read is what is to be presented
* `unsent_of_prepare` — what comes of an exchange that sends nothing
* `exists_presents_of_mem` — every request was sent when its token was read
* `presented_tokens` — both, at every exchange of every run
-/

namespace VaultTokens

/-! ### What there is to present -/

/-- What a login presents if the files are these: a token, or nothing. -/
inductive Presents (file : String) (inlineToken : Option String) (files : FileTree) :
    Option String → Prop where
  /-- The text of the file, without the blanks around it. -/
  | contents {text core : List Char} (hread : files.read file = .ok (Text.Utf8.encode text))
    (hnamed : text.all Text.isBlank = false) (hcore : Text.Trims text core) :
    Presents file inlineToken files (some (String.ofList core))
  /-- Nothing, for the text of the file is blank. -/
  | blank {text : List Char} (hread : files.read file = .ok (Text.Utf8.encode text))
    (hblank : text.all Text.isBlank = true) : Presents file inlineToken files none
  /-- The inline token, for the file has no text. -/
  | inline {token : String} (hread : ∀ text, files.read file ≠ .ok (Text.Utf8.encode text))
    (hinline : inlineToken = some token) : Presents file inlineToken files (some token)
  /-- Nothing, for the file has no text, and there is no inline token. -/
  | nothing (hread : ∀ text, files.read file ≠ .ok (Text.Utf8.encode text))
    (hinline : inlineToken = none) : Presents file inlineToken files none

/-- A login has something to present, or nothing. -/
theorem exists_presents (file : String) (inlineToken : Option String) (files : FileTree) :
    ∃ presented, Presents file inlineToken files presented := by
  by_cases htext : ∃ text, files.read file = .ok (Text.Utf8.encode text)
  · obtain ⟨text, hread⟩ := htext
    cases hblank : text.all Text.isBlank with
    | true => exact ⟨_, .blank hread hblank⟩
    | false => exact ⟨_, .contents hread hblank (Text.trims_trimChars text)⟩
  · have hread : ∀ text, files.read file ≠ .ok (Text.Utf8.encode text) :=
      fun text hread => htext ⟨text, hread⟩
    cases inlineToken with
    | none => exact ⟨_, .nothing hread rfl⟩
    | some token => exact ⟨_, .inline hread rfl⟩

/-- **What is presented is not blank** if the inline token is not. -/
theorem Presents.isAllBlank_eq_false {file : String} {inlineToken : Option String}
    {files : FileTree} {jwt : String} (h : Presents file inlineToken files (some jwt))
    (hinline : ∀ token, inlineToken = some token → Text.isAllBlank token = false) :
    Text.isAllBlank jwt = false := by
  cases h with
  | contents _ hnamed hcore =>
    rw [Text.isAllBlank, String.toList_ofList]
    exact hcore.isBlank_eq_false hnamed
  | inline _ hjwt => exact hinline jwt hjwt

namespace ServiceAccount

variable {s : ServiceAccount} {files : FileTree} {presented : Option String} {text : List Char}
  {f : Failure}

theorem contents_of_text (h : files.read s.file = .ok (Text.Utf8.encode text)) :
    s.contents files = .ok (String.ofList text) := by
  rw [contents, h]
  simp only [Text.Utf8.decodeStrict_encode]

theorem contents_of_no_text (h : ∀ text, files.read s.file ≠ .ok (Text.Utf8.encode text)) :
    ∃ reason, s.contents files = .error reason := by
  rw [contents]
  cases hread : files.read s.file with
  | error fault => exact ⟨_, rfl⟩
  | ok bytes =>
    cases hdecode : Text.Utf8.decodeStrict bytes with
    | none =>
      refine ⟨"stream did not contain valid UTF-8", ?_⟩
      simp only [hdecode]
    | some text =>
      rw [Text.Utf8.decodeStrict_eq_some_iff.mp hdecode] at hread
      exact absurd hread (h text)

theorem toOption_read (h : Presents s.file s.inlineToken files presented) :
    presented = (s.read files).toOption := by
  cases h with
  | contents hread hnamed hcore =>
    rw [read_of_text (contents_of_text hread) (by rwa [Text.isAllBlank, String.toList_ofList]),
      hcore.eq_trimChars hnamed, Text.trim, String.toList_ofList]
    rfl
  | blank hread hblank =>
    rw [read_of_blank (contents_of_text hread) (by rwa [Text.isAllBlank, String.toList_ofList])]
    rfl
  | inline hread hinline =>
    obtain ⟨reason, hreason⟩ := contents_of_no_text hread
    rw [read_of_fault hreason hinline]
    rfl
  | nothing hread hinline =>
    obtain ⟨reason, hreason⟩ := contents_of_no_text hread
    rw [read, hreason, hinline]
    rfl

/-- **What is read is what is to be presented.** -/
theorem presents_iff :
    Presents s.file s.inlineToken files presented ↔ presented = (s.read files).toOption := by
  constructor
  · exact toOption_read
  · rintro rfl
    obtain ⟨presented, h⟩ := exists_presents s.file s.inlineToken files
    rwa [← toOption_read h]

/-- A token that cannot be read is a failure of its own kind. -/
theorem kind_of_read (h : s.read files = .error f) : f.kind = .serviceAccount := by
  rw [read] at h
  split at h
  · split at h
    · obtain rfl := Except.error.inj h
      rfl
    · cases h
  · split at h
    · cases h
    · obtain rfl := Except.error.inj h
      rfl

end ServiceAccount

/-! ### What is sent -/

/-- A request carries the document of a login, which names a role and a service account token. -/
structure Carries (r : Request) (role jwt : String) : Prop where
  /-- Its body is that document. -/
  body : r.body = some (Login.kubernetesBody role jwt)
  /-- Whoever reads it finds the role and the token. -/
  named : (Http.document? (r.body.map fun body => Text.Utf8.encode body.toList)).bind
    Login.credentials? = some (role, jwt)

namespace Method

variable {server : Url} {role : String} {account : ServiceAccount} {threshold : Span}
  {files : FileTree} {r : Request} {f : Failure} {jwt : String}

/-- The method of settings that were made has the file and the inline token that were given. -/
theorem eq_kubernetes_of_make {choices : KubernetesSettings.Choices}
    {settings : KubernetesSettings} {m : Method}
    (hmade : KubernetesSettings.make choices = .ok settings)
    (hm : ofKubernetes settings files = .ok m) :
    m = .kubernetes settings.url choices.role
      ⟨choices.tokenFile.getD usualTokenFile,
        choices.inlineToken.filter fun t => !Text.isAllBlank t⟩
      (thresholdOf settings.threshold) := by
  rw [KubernetesSettings.make] at hmade
  split at hmade
  · cases hmade
  · split at hmade
    · obtain rfl := Except.ok.inj hmade
      rw [ofKubernetes, ServiceAccount.make] at hm
      split at hm
      · cases hm
      · rename_i account haccount
        split at haccount
        · cases haccount
        · obtain rfl := Except.ok.inj haccount
          exact (Except.ok.inj hm).symm
    · cases hmade

/-- The request of a login presents the token that is read at that moment. -/
theorem carries_of_prepare (h : (kubernetes server role account threshold).prepare files = .ok r) :
    ∃ jwt, Presents account.file account.inlineToken files (some jwt) ∧ Carries r role jwt := by
  obtain ⟨jwt, hread, hrequest⟩ := prepare_kubernetes_eq_ok.mp h
  have hbody := Login.body_kubernetesRequest hrequest
  refine ⟨jwt, ?_, hbody, ?_⟩
  · rw [ServiceAccount.presents_iff, hread]
    rfl
  · rw [hbody]
    exact Login.credentials?_kubernetesBody role jwt

theorem kind_of_post {w : Login.Words} {endpoint body : String} {token : Option String}
    (h : Login.post w endpoint token body = .error f) : f.kind = .network := by
  rw [Login.post] at h
  split at h
  · obtain rfl := Except.error.inj h
    rfl
  · obtain rfl := Except.error.inj h
    rfl
  · rw [Login.prepare] at h
    split at h
    · cases h
    · obtain rfl := Except.error.inj h
      rfl

variable (account threshold) in
/-- A token that can be presented is sent if the server can be asked at all. -/
theorem prepare_of_presents (h : Presents account.file account.inlineToken files (some jwt)) :
    (Login.canAsk server = true → ∃ r,
        (kubernetes server role account threshold).prepare files = .ok r ∧ Carries r role jwt) ∧
      (Login.canAsk server = false → ∃ f,
        (kubernetes server role account threshold).prepare files = .error f ∧
          f.kind = .network) := by
  have hread : account.read files = .ok jwt := by
    have hsome := ServiceAccount.presents_iff.mp h
    cases hread : account.read files with
    | ok found =>
      rw [hread] at hsome
      rw [Option.some.inj hsome]
    | error f =>
      rw [hread] at hsome
      cases hsome
  have hask := Login.isOk_kubernetesRequest server role jwt
  have hprepare : (kubernetes server role account threshold).prepare files
      = Login.kubernetesRequest (.server server) role jwt := by
    rw [prepare, hread]
  constructor
  · intro htrue
    cases hrequest : Login.kubernetesRequest (.server server) role jwt with
    | ok r =>
      have hr := hprepare.trans hrequest
      obtain ⟨found, hfound, hcarries⟩ := carries_of_prepare hr
      have hsame := (ServiceAccount.presents_iff.mp hfound).trans
        (ServiceAccount.presents_iff.mp h).symm
      obtain rfl := Option.some.inj hsame
      exact ⟨r, hr, hcarries⟩
    | error f =>
      rw [hrequest, htrue] at hask
      cases hask
  · intro hfalse
    cases hrequest : Login.kubernetesRequest (.server server) role jwt with
    | ok r =>
      rw [hrequest, hfalse] at hask
      cases hask
    | error f => exact ⟨f, hprepare.trans hrequest, kind_of_post hrequest⟩

variable (account threshold) in
/-- Where there is nothing to present, nothing is sent. -/
theorem prepare_of_presents_none (h : Presents account.file account.inlineToken files none) :
    ∃ f, (kubernetes server role account threshold).prepare files = .error f ∧
      f.kind = .serviceAccount := by
  have hnone := ServiceAccount.presents_iff.mp h
  cases hread : account.read files with
  | ok found =>
    rw [hread] at hnone
    cases hnone
  | error f => exact ⟨f, by rw [prepare, hread], ServiceAccount.kind_of_read hread⟩

end Method

namespace Authenticator

variable {m : Method} {env : Surroundings} {a b : Authenticator} {e : Event}
  {past new : List Notice} {i : Nat} {d : Demand} {o : Except Failure Issued} {f : Failure}

theorem step_of_prepare_eq_ok {r : Request} (hc : a.calls[i]? = some ⟨d, .presenting⟩)
    (hr : m.prepare env.files = .ok r) :
    a.step m env (.advance i) = (a.enter i (.exchanging r), [.sent i r]) := by
  rw [step, advance, hc]
  simp only [hr]

theorem step_of_prepare_eq_error (hc : a.calls[i]? = some ⟨d, .presenting⟩)
    (hf : m.prepare env.files = .error f) :
    a.step m env (.advance i) = (a.enter i (.recording (.error f)), [.ended i (.error f)]) := by
  rw [step, advance, hc]
  simp only [hf]

/-! ### An exchange that sends nothing -/

/-- While an outcome waits to be recorded, nothing else is. -/
theorem Change.keeps_recording (hchange : Change m env a e b new) (hline : Orderly a)
    (hc : a.calls[i]? = some ⟨d, .recording o⟩) (hstep : e ≠ .advance i) (hkept : e ≠ .cancel i) :
    b.calls[i]? = some ⟨d, .recording o⟩ ∧ recordings new = [] := by
  by_cases hi : e.call? = some i
  · cases e with
    | begin _ => cases hi
    | advance j => exact absurd (congrArg Event.advance (Option.some.inj hi)) hstep
    | cancel j => exact absurd (congrArg Event.cancel (Option.some.inj hi)) hkept
    | reply j reply =>
      obtain rfl := Option.some.inj hi
      cases hchange with
      | nothing => exact ⟨hc, rfl⟩
      | hears _ hc' => cases Option.some.inj (hc'.symm.trans hc)
  · exact ⟨hchange.calls_eq_of_ne hc hi, hchange.recordings_of_holds hline hc rfl hi⟩

/-- **An outcome waits to be recorded until its call takes its next step**, and the standing waits
with it. -/
theorem recording_run (hline : Orderly a) (hc : a.calls[i]? = some ⟨d, .recording o⟩) (m : Method)
    {events : List (Surroundings × Event)}
    (hevents : ∀ x ∈ events, x.2 ≠ .advance i ∧ x.2 ≠ .cancel i) :
    (a.run m events).1.calls[i]? = some ⟨d, .recording o⟩ ∧
      (a.run m events).1.standing = a.standing := by
  have hwaits : Orderly (a.run m events).1 ∧
      (a.run m events).1.calls[i]? = some ⟨d, .recording o⟩ ∧
        recordings (a.run m events).2 = [] := by
    refine run_induction (fun b past => Orderly b ∧ b.calls[i]? = some ⟨d, .recording o⟩ ∧
      recordings past = []) ?_ ⟨hline, hc, rfl⟩
    rintro env e hmem a b past new hchange ⟨hline, hc, hpast⟩
    obtain ⟨hstep, hkept⟩ := hevents _ hmem
    obtain ⟨hc', hnew⟩ := hchange.keeps_recording hline hc hstep hkept
    exact ⟨hline.step hchange, hc', recordings_append_of_eq_nil hnew hpast⟩
  obtain ⟨-, hcall, hnone⟩ := hwaits
  refine ⟨hcall, ?_⟩
  rw [standing_run, outcomes_eq_map_recordings, hnone]
  rfl

/-- What comes of an exchange of a call that sends nothing and fails, at the event behind those of
`before`. -/
structure Unsent (m : Method) (before : List (Surroundings × Event)) (env : Surroundings) (i : Nat)
    (rest : List (Surroundings × Event)) (f : Failure) : Prop where
  /-- The exchange ends with the failure, and that is all. -/
  ended : ((initial.run m before).1.step m env (.advance i)).2 = [.ended i (.error f)]
  /-- The call never sends a request. -/
  unsent : i ∉ posts (initial.run m (before ++ (env, .advance i) :: rest)).2
  /-- A login has no other answer than the failure. -/
  told : ∀ answer, (initial.run m (before ++ (env, .advance i) :: rest)).1.calls[i]?
    = some ⟨.login, .finished answer⟩ → answer = .issued (.error f)
  /-- A login that is not given up is told so after two steps of its own. -/
  ends : (∀ x ∈ rest, x.2 ≠ .cancel i) → 2 ≤ turns i rest →
    (initial.run m before).1.calls[i]? = some ⟨.login, .presenting⟩ →
    (initial.run m (before ++ (env, .advance i) :: rest)).1.calls[i]?
      = some ⟨.login, .finished (.issued (.error f))⟩
  /-- The next step of the call records the failure: it counts as one more, and the lease stays. -/
  counts : ∀ between env' later, rest = between ++ (env', .advance i) :: later →
    (∀ x ∈ between, x.2 ≠ .advance i ∧ x.2 ≠ .cancel i) →
    let known := (initial.run m before).1.standing
    let next := (initial.run m (before ++ (env, .advance i) :: between)).1.step m env' (.advance i)
    next.2 = [.recorded i env'.now (.error f)] ∧
      next.1.standing = ⟨known.lease, Standing.countUp known.failures, some f.message⟩
  /-- It is not recorded twice. -/
  once : ((recordings (initial.run m (before ++ (env, .advance i) :: rest)).2).map
    Prod.fst).count i ≤ 1

/-- **What comes of an exchange that sends nothing.** -/
theorem unsent_of_prepare {before : List (Surroundings × Event)}
    (hc : (initial.run m before).1.calls[i]? = some ⟨d, .presenting⟩)
    (hf : m.prepare env.files = .error f) (rest : List (Surroundings × Event)) :
    Unsent m before env i rest f := by
  have hstep := step_of_prepare_eq_error hc hf
  have hrun : ∀ events, initial.run m (before ++ (env, .advance i) :: events)
      = ((((initial.run m before).1.enter i (.recording (.error f))).run m events).1,
        (initial.run m before).2 ++ ([.ended i (.error f)] ++
          (((initial.run m before).1.enter i (.recording (.error f))).run m events).2)) := by
    intro events
    rw [run_append, run_cons, hstep]
  have hrecording := calls_enter_self hc (.recording (.error f))
  have hline : Orderly ((initial.run m before).1.enter i (.recording (.error f))) := by
    have h := (orderly_run orderly_initial m before).step
      (change_step m env (initial.run m before).1 (.advance i))
    rwa [hstep] at h
  refine ⟨by rw [hstep], ?_, ?_, ?_, ?_, ?_⟩
  · rw [hrun, ← List.append_assoc]
    refine spent_run hrecording rfl ?_ m rest
    rw [posts_append]
    exact fun h => not_mem_posts_of_canSend before hc rfl (by simpa [posts] using h)
  · intro answer hanswer
    rw [hrun] at hanswer
    obtain ⟨phase, hphase⟩ := demand_run hrecording m rest
    obtain ⟨rfl, -⟩ := Call.mk.inj (Option.some.inj (hphase.symm.trans hanswer))
    exact answer_of_concludes hrecording (.inl rfl) m rest hanswer
  · intro hkept hturns hlogin
    obtain ⟨rfl, -⟩ := Call.mk.inj (Option.some.inj (hc.symm.trans hlogin))
    rw [hrun]
    refine finished_of_concludes hrecording (.inl rfl) ?_ m hkept hturns
    intro h
    cases h
  · rintro between env' later rfl hbetween known next
    obtain ⟨hcall, hstanding⟩ := recording_run hline hrecording m hbetween
    have hnext : next = (((initial.run m before).1.enter i (.recording (.error f))).run m
        between).1.step m env' (.advance i) := by
      simp only [next, hrun]
    rw [hnext, step, advance, hcall]
    refine ⟨rfl, ?_⟩
    simp only [standing_enter, hstanding, Standing.record_error]
    rfl
  · have hturn := inTurn_run m (before ++ (env, .advance i) :: rest)
    exact List.nodup_iff_count_le_one.mp (hturn.sub.nodup hturn.nodup) i

/-! ### Where requests come from -/

/-- **Every request was sent by a call when its token was read.** -/
theorem exists_presents_of_mem {server : Url} {role : String} {account : ServiceAccount}
    {threshold : Span} {events : List (Surroundings × Event)} {r : Request}
    (hsent : .sent i r ∈ (initial.run (.kubernetes server role account threshold) events).2) :
    ∃ before env rest jwt, events = before ++ (env, .advance i) :: rest ∧
      ((initial.run (.kubernetes server role account threshold) before).1.step
        (.kubernetes server role account threshold) env (.advance i)).2 = [.sent i r] ∧
      Presents account.file account.inlineToken env.files (some jwt) ∧ Carries r role jwt := by
  obtain ⟨before, env, e, rest, rfl, hnew⟩ := exists_event_of_mem _ initial hsent
  have hchange := change_step (.kubernetes server role account threshold) env
    (initial.run (.kubernetes server role account threshold) before).1 e
  generalize hb : ((initial.run _ before).1.step _ env e).1 = b,
    hn : ((initial.run _ before).1.step _ env e).2 = new at hchange hnew
  cases hchange with
  | sends hc hr =>
    obtain ⟨rfl, rfl⟩ := Notice.sent.inj (List.mem_singleton.mp hnew)
    obtain ⟨jwt, hpresents, hcarries⟩ := Method.carries_of_prepare hr
    exact ⟨before, env, rest, jwt, rfl, hn, hpresents, hcarries⟩
  | nothing | begins | looks | passes | joins | turns | yields => cases hnew
  | serves | enters | lacks | hears | records | leaves | reads => cases List.mem_singleton.mp hnew

/-- **Which tokens logins present**, to whatever the file is changed between them. Every request is
sent when its token is read, and what it presents is never blank. An exchange that has a token to
present sends it, if the server can be asked at all. If it cannot, or there is nothing to present,
the exchange sends nothing and fails, and the failure is recorded. -/
theorem presented_tokens {choices : KubernetesSettings.Choices} {settings : KubernetesSettings}
    {built : FileTree} {m : Method} (hmade : KubernetesSettings.make choices = .ok settings)
    (hm : Method.ofKubernetes settings built = .ok m) (events : List (Surroundings × Event)) :
    let file := choices.tokenFile.getD usualTokenFile
    let inlineToken := choices.inlineToken.filter fun t => !Text.isAllBlank t
    (∀ i r, .sent i r ∈ (initial.run m events).2 →
      ∃ before env rest jwt, events = before ++ (env, .advance i) :: rest ∧
        ((initial.run m before).1.step m env (.advance i)).2 = [.sent i r] ∧
        Presents file inlineToken env.files (some jwt) ∧ Text.isAllBlank jwt = false ∧
        Carries r choices.role jwt) ∧
    ∀ before env i rest d, events = before ++ (env, .advance i) :: rest →
      (initial.run m before).1.calls[i]? = some ⟨d, .presenting⟩ →
      (∃ presented, Presents file inlineToken env.files presented) ∧
      (∀ jwt, Presents file inlineToken env.files (some jwt) →
        (Login.canAsk settings.url = true → ∃ r,
          ((initial.run m before).1.step m env (.advance i)).2 = [.sent i r] ∧
            Carries r choices.role jwt) ∧
        (Login.canAsk settings.url = false → ∃ f,
          f.kind = .network ∧ Unsent m before env i rest f)) ∧
      (Presents file inlineToken env.files none → ∃ f,
        f.kind = .serviceAccount ∧ Unsent m before env i rest f) := by
  intro file inlineToken
  obtain rfl := Method.eq_kubernetes_of_make hmade hm
  refine ⟨fun i r hsent => ?_, ?_⟩
  · obtain ⟨before, env, rest, jwt, hevents, hstep, hpresents, hcarries⟩ :=
      exists_presents_of_mem hsent
    refine ⟨before, env, rest, jwt, hevents, hstep, hpresents, ?_, hcarries⟩
    exact hpresents.isAllBlank_eq_false fun token htoken => by
      simpa using (Option.filter_eq_some_iff.mp htoken).2
  · rintro before env i rest d - hc
    refine ⟨exists_presents file inlineToken env.files, fun jwt hpresents => ?_,
      fun hpresents => ?_⟩
    · obtain ⟨hcan, hcannot⟩ :=
        Method.prepare_of_presents ⟨file, inlineToken⟩
          (Method.thresholdOf settings.threshold) hpresents
      constructor
      · intro hask
        obtain ⟨r, hr, hcarries⟩ := hcan hask
        exact ⟨r, by rw [step_of_prepare_eq_ok hc hr], hcarries⟩
      · intro hask
        obtain ⟨f, hf, hkind⟩ := hcannot hask
        exact ⟨f, hkind, unsent_of_prepare hc hf rest⟩
    · obtain ⟨f, hf, hkind⟩ :=
        Method.prepare_of_presents_none ⟨file, inlineToken⟩
          (Method.thresholdOf settings.threshold) hpresents
      exact ⟨f, hkind, unsent_of_prepare hc hf rest⟩

/-- Settings with a file and an inline token. -/
def filedChoices : KubernetesSettings.Choices :=
  ⟨"http://vault:8200", "app", some "jwt", some "token", some 60, none⟩

/-- The surroundings while there is some text in the file. -/
def filed (text : String) : Surroundings :=
  ⟨.epoch, 0, ⟨[(["token"], .file (Text.Utf8.encode text.toList))]⟩⟩

/-- A login up to where it reads the file. -/
def untilReading : List (Surroundings × Event) :=
  pairEvents [.begin .login, .advance 0, .advance 0, .advance 0]

/-- The login ends, and another one comes as far. -/
def untilNextReading : List (Surroundings × Event) :=
  pairEvents [.advance 0, .advance 0, .begin .login, .advance 1, .advance 1, .advance 1]

/-- A login that finds a blank file sends nothing, although there is an inline token. When the file
has been written again, the next one presents what is in it then. -/
theorem presented_tokens_filed :
    ∃ settings, KubernetesSettings.make filedChoices = .ok settings ∧
      Method.ofKubernetes settings .empty = .ok pairMethod ∧
      (∃ f, f.kind = .serviceAccount ∧
        Unsent pairMethod untilReading (filed "\n") 0
          (untilNextReading ++ [(filed " new\n", .advance 1)]) f) ∧
      ∃ r, ((initial.run pairMethod
          (untilReading ++ (filed "\n", .advance 0) :: untilNextReading)).1.step pairMethod
            (filed " new\n") (.advance 1)).2 = [.sent 1 r] ∧ Carries r "app" "new" := by
  have hparse : Url.parse? "http://vault:8200"
      = some ⟨.http, .absent, .name "vault", some 8200, [[]], none, none⟩ := by decide +kernel
  obtain ⟨settings, hmade, hm⟩ : ∃ settings, KubernetesSettings.make filedChoices = .ok settings ∧
      Method.ofKubernetes settings .empty = .ok pairMethod := by
    simp only [KubernetesSettings.make, filedChoices, readUrl, hparse]
    exact ⟨_, rfl, rfl⟩
  have hblank : Presents "token" (some "jwt") (filed "\n").files none :=
    (ServiceAccount.presents_iff (s := ⟨"token", some "jwt"⟩)).mpr (by decide +kernel)
  have hnew : Presents "token" (some "jwt") (filed " new\n").files (some "new") :=
    (ServiceAccount.presents_iff (s := ⟨"token", some "jwt"⟩)).mpr (by decide +kernel)
  obtain ⟨-, hrun⟩ := presented_tokens hmade hm
    (untilReading ++ (filed "\n", .advance 0) ::
      (untilNextReading ++ [(filed " new\n", .advance 1)]))
  obtain ⟨-, -, hunsent⟩ := hrun untilReading (filed "\n") 0 _ .login rfl rfl
  have hnext : (initial.run pairMethod
      (untilReading ++ (filed "\n", .advance 0) :: untilNextReading)).1.calls[1]?
        = some ⟨.login, .presenting⟩ := by
    obtain ⟨f, hf, -⟩ : ∃ f, pairMethod.prepare (filed "\n").files = .error f ∧
        f.kind = .serviceAccount := Method.prepare_of_presents_none _ _ hblank
    rw [run_append, run_cons, step_of_prepare_eq_error (d := .login) rfl hf]
    rfl
  obtain ⟨-, hsends, -⟩ := hrun _ (filed " new\n") 1 [] .login (by simp) hnext
  refine ⟨settings, hmade, hm, hunsent hblank, (hsends "new" hnew).1 ?_⟩
  have hserver := (readUrl_eq_ok_iff.mp (KubernetesSettings.make_eq_ok hmade).1)
  rw [filedChoices, hparse] at hserver
  rw [← Option.some.inj hserver]
  decide +kernel

/-- A whole login while there is no file. -/
def soleLogin : List (Surroundings × Event) :=
  untilReading ++ (⟨.epoch, 0, .empty⟩, .advance 0) :: pairEvents [.advance 0, .advance 0]

/-- Settings may name a server to which no login can be sent. Then there is a token to present, and
nothing is sent. -/
theorem nothing_presented_braced :
    (∃ settings,
      KubernetesSettings.make ⟨"http://a\x7bb", "app", some "jwt", none, none, none⟩
        = .ok settings ∧ Method.ofKubernetes settings .empty = .ok bracedMethod) ∧
      Presents usualTokenFile (some "jwt") .empty (some "jwt") ∧
      posts (initial.run bracedMethod soleLogin).2 = [] ∧
      ∃ f, f.kind = .network ∧ (initial.run bracedMethod soleLogin).1.calls[0]?
        = some ⟨.login, .finished (.issued (.error f))⟩ := by
  have hparse : Url.parse? "http://a\x7bb"
      = some ⟨.http, .absent, .name "a\x7bb", none, [[]], none, none⟩ := by decide +kernel
  have hpresents : Presents usualTokenFile (some "jwt") .empty (some "jwt") :=
    (ServiceAccount.presents_iff (s := ⟨usualTokenFile, some "jwt"⟩)).mpr (by decide +kernel)
  refine ⟨?_, hpresents, by decide +kernel, ?_⟩
  · simp only [KubernetesSettings.make, readUrl, hparse]
    exact ⟨_, rfl, rfl⟩
  · obtain ⟨f, hf, hkind⟩ : ∃ f, bracedMethod.prepare .empty = .error f ∧ f.kind = .network :=
      (Method.prepare_of_presents _ _ hpresents).2 (by decide +kernel)
    have hc : (initial.run bracedMethod untilReading).1.calls[0]?
      = some ⟨.login, .presenting⟩ := rfl
    exact ⟨f, hkind, (unsent_of_prepare hc hf _).ends (by simp [pairEvents]) (by decide) hc⟩

end Authenticator

end VaultTokens
