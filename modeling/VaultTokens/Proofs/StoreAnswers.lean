import VaultTokens.Proofs.ErrandProgress
import VaultTokens.Proofs.FolderAddresses
import VaultTokens.Proofs.VersionMetadata

/-!
# What comes of an operation on a secret

The three operations look at the status first, and differ in what they make of it: `Verdict` lists
the cases, with 404 apart from success and from the other statuses. Only where a secret is read or
written does the body matter, and only if the status means success. `IsReadAnswer` and
`IsWriteAnswer` say which documents such a body must be, in terms of their parts; a secret may
repeat its members and the last content counts, but an envelope may not.

## Main results

* `holds_iff` — which values are secrets, and what their content is
* `conclude_resolve_eq_ok_iff`, `conclude_store_eq_ok_iff`, `conclude_remove_eq_ok_iff` — when an
  operation succeeds
* `conclude_resolve_eq_secretNotFound_iff` — when there is no secret
* `conclude_of_refuses` — what is told about every other status
* `answers_decide` — all of this, for the operations of running services
-/

namespace VaultTokens

/-- What a status other than success means. -/
inductive Http.Signifies : Nat → Failure.Kind → Prop where
  | badRequest : Signifies 400 .invalidData
  | notFound : Signifies 404 .invalidData
  | unauthorized : Signifies 401 .authentication
  | forbidden : Signifies 403 .permissionDenied
  | other {status : Nat} (h : status ∉ [400, 401, 403, 404]) : Signifies status .network

/-- A status is told as what it means. -/
theorem Http.signifies_statusKind (status : Nat) :
    Http.Signifies status (Http.statusKind status) := by
  rw [Http.statusKind]
  split
  · rename_i h
    rcases h with rfl | rfl
    exacts [.badRequest, .notFound]
  split
  · rename_i h
    subst h
    exact .unauthorized
  split
  · rename_i h
    subst h
    exact .forbidden
  · exact .other (by simp; omega)

namespace Secrets

open Json

/-! ### Contents -/

/-- A value is a secret that holds a content: an object all of whose members can be read, and of
those that bear the name of the content the last one is that text. -/
inductive Holds : Node → String → Prop where
  | last (before after : List (List Char × Node)) {members : List (List Symbol × Node)}
    {literal : List Symbol} {text : String}
    (hnamed : Named members (before ++ (contentName.toList, .string literal) :: after))
    (hreadable : ∀ m ∈ members, Readable depthInside m.2)
    (hlast : contentName.toList ∉ after.map Prod.fst) (htext : Means literal text.toList) :
    Holds (.object members) text

/-- The members of a secret are those of an object that can be read to its end. -/
theorem members?_eq_some_iff {node : Node} (h : Denoted node)
    {named : List (List Char × Node)} :
    members? node = some named ↔ ∃ members, node = .object members ∧ Named members named ∧
      ∀ m ∈ members, Readable depthInside m.2 := by
  cases node with
  | object members =>
    have hreadable : (members.all fun m => m.2.isReadable depthInside) = true ↔
        ∀ m ∈ members, Readable depthInside m.2 := by
      rw [List.all_eq_true]
      exact forall₂_congr fun m hm => isReadable_iff (h.member hm).2
    constructor
    · intro hmembers
      rw [members?] at hmembers
      split at hmembers
      · rename_i hall
        exact ⟨_, rfl, (named?_eq_some_iff h).mp hmembers, hreadable.mp hall⟩
      · cases hmembers
    · rintro ⟨_, heq, hnamed, hall⟩
      cases heq
      rw [members?, if_pos (hreadable.mpr hall)]
      exact (named?_eq_some_iff h).mpr hnamed
  | _ => simp [members?]

/-- The last one that meets a condition stands before some that do not. -/
theorem getLast?_filter_eq_some_iff {α : Type} {p : α → Bool} {xs : List α} {x : α} :
    (xs.filter p).getLast? = some x ↔
      ∃ before after, xs = before ++ x :: after ∧ p x = true ∧ ∀ y ∈ after, p y = false := by
  constructor
  · intro h
    obtain ⟨ys, hys⟩ := List.getLast?_eq_some_iff.mp h
    obtain ⟨first, second, rfl, -, hsecond⟩ := List.filter_eq_append_iff.mp hys
    obtain ⟨between, after, rfl, -, hx, hafter⟩ := List.filter_eq_cons_iff.mp hsecond
    refine ⟨first ++ between, after, by simp, hx, fun y hy => ?_⟩
    simpa using List.filter_eq_nil_iff.mp hafter y hy
  · rintro ⟨before, after, rfl, hx, hafter⟩
    have hnone : after.filter p = [] := List.filter_eq_nil_iff.mpr fun y hy => by simp [hafter y hy]
    rw [List.filter_append, List.filter_cons_of_pos hx, hnone]
    simp

/-- The content is the text of the last member of its name. -/
theorem contentIn_eq_some_iff {named : List (List Char × Node)} (h : ∀ m ∈ named, Denoted m.2)
    {text : String} :
    contentIn named = some text ↔ ∃ before after literal,
      named = before ++ (contentName.toList, .string literal) :: after ∧
        contentName.toList ∉ after.map Prod.fst ∧ Means literal text.toList := by
  have hnot : ∀ after : List (List Char × Node),
      (∀ m ∈ after, decide (m.1 = contentName.toList) = false) ↔
        contentName.toList ∉ after.map Prod.fst := by
    intro after
    simp only [decide_eq_false_iff_not, List.mem_map, not_exists, not_and]
  rw [contentIn, Option.bind_eq_some_iff]
  simp only [getLast?_filter_eq_some_iff, decide_eq_true_eq, hnot]
  constructor
  · rintro ⟨m, ⟨before, after, rfl, hname, hafter⟩, htext⟩
    obtain ⟨literal, hnode, hmeans⟩ := (Node.text?_eq_some_iff (h m (by simp))).mp htext
    exact ⟨before, after, literal, by rw [← hname, ← hnode], hafter, hmeans⟩
  · rintro ⟨before, after, literal, rfl, hafter, hmeans⟩
    exact ⟨_, ⟨before, after, rfl, rfl, hafter⟩,
      (Node.text?_eq_some_iff (h _ (by simp))).mpr ⟨literal, rfl, hmeans⟩⟩

/-- **Which values are secrets, and what their content is.** -/
theorem holds_iff {node : Node} (h : Denoted node) {text : String} :
    Holds node text ↔ ∃ named, members? node = some named ∧ contentIn named = some text := by
  constructor
  · rintro ⟨before, after, hnamed, hreadable, hlast, htext⟩
    exact ⟨_, (members?_eq_some_iff h).mpr ⟨_, rfl, hnamed, hreadable⟩,
      (contentIn_eq_some_iff fun _ => hnamed.denoted h).mpr ⟨_, _, _, rfl, hlast, htext⟩⟩
  · rintro ⟨named, hmembers, hcontent⟩
    obtain ⟨members, rfl, hnamed, hreadable⟩ := (members?_eq_some_iff h).mp hmembers
    obtain ⟨before, after, literal, rfl, hlast, htext⟩ :=
      (contentIn_eq_some_iff fun _ => hnamed.denoted h).mp hcontent
    exact .last before after hnamed hreadable hlast htext

/-! ### Envelopes -/

/-- A value is an envelope with another one inside. -/
def Encloses (node inside : Node) : Prop := Parts [envelopeName] node [some inside]

theorem opened?_eq_some_iff {node : Node} (h : Denoted node) {inside : Node} :
    opened? node = some inside ↔ Encloses node inside := by
  rw [Encloses, ← record?_eq_some_iff h, opened?]
  split <;> simp_all

/-- A document is the answer to a secret that is read, with its content. -/
def IsReadAnswer (node : Node) (text : String) : Prop :=
  ∃ outer inner, Encloses node outer ∧ Encloses outer inner ∧ Holds inner text

/-- A document is the answer to a secret that is written, with its version. -/
def IsWriteAnswer (node : Node) (v : Version) : Prop :=
  ∃ data, Encloses node data ∧ v.Describes data

/-- The content that is found in a document is the one that it answers with. -/
theorem answered?_bind_eq_some_iff {node : Node} (h : Denoted node) {text : String} :
    (answered? node).bind contentIn = some text ↔ IsReadAnswer node text := by
  simp only [answered?, Option.bind_eq_some_iff, IsReadAnswer]
  constructor
  · rintro ⟨named, ⟨inner, ⟨outer, houter, hinner⟩, hmembers⟩, hcontent⟩
    have houter := (opened?_eq_some_iff h).mp houter
    have hd : Denoted outer := houter.denoted h (by simp)
    have hinner := (opened?_eq_some_iff hd).mp hinner
    exact ⟨outer, inner, houter, hinner,
      (holds_iff (hinner.denoted hd (by simp))).mpr ⟨named, hmembers, hcontent⟩⟩
  · rintro ⟨outer, inner, houter, hinner, hholds⟩
    have hd : Denoted outer := houter.denoted h (by simp)
    obtain ⟨named, hmembers, hcontent⟩ :=
      (holds_iff (hinner.denoted hd (by simp))).mp hholds
    exact ⟨named, ⟨inner, ⟨outer, (opened?_eq_some_iff h).mpr houter,
      (opened?_eq_some_iff hd).mpr hinner⟩, hmembers⟩, hcontent⟩

/-- The version that is found in a document is the one that it answers with. -/
theorem ofAnswer?_eq_some_iff {node : Node} (h : Denoted node) {v : Version} :
    Version.ofAnswer? node = some v ↔ IsWriteAnswer node v := by
  constructor
  · intro hv
    rw [Version.ofAnswer?] at hv
    split at hv
    · rename_i data hdata
      have hdata : Encloses node data := (record?_eq_some_iff h).mp hdata
      exact ⟨data, hdata, (Version.ofNode?_eq_some_iff (hdata.denoted h (by simp))).mp hv⟩
    · cases hv
  · rintro ⟨data, hdata, hdescribes⟩
    rw [Version.ofAnswer?_eq h hdata,
      Version.ofNode?_eq_some_iff (hdata.denoted h (by simp))]
    exact hdescribes

/-! ### Operations -/

namespace Operation

variable {key content : String} {url : Url} {status : Nat} {body : Option (List UInt8)}

theorem concludeResolve_eq_ok_iff {gain : Gain} :
    concludeResolve body = .ok gain ↔
      ∃ node, Http.document? body = some node ∧
        ∃ text, IsReadAnswer node text ∧ gain = .content text := by
  constructor
  · intro h
    rw [concludeResolve] at h
    split at h
    · cases h
    rename_i named hanswered
    obtain ⟨node, hnode, hnamed⟩ := Option.bind_eq_some_iff.mp hanswered
    split at h
    · rename_i text htext
      obtain rfl := Except.ok.inj h
      exact ⟨node, hnode, text,
        (answered?_bind_eq_some_iff (Http.denoted_of_document? hnode)).mp
          (Option.bind_eq_some_iff.mpr ⟨named, hnamed, htext⟩), rfl⟩
    · cases h
  · rintro ⟨node, hnode, text, hanswer, rfl⟩
    obtain ⟨named, hnamed, htext⟩ := Option.bind_eq_some_iff.mp
      ((answered?_bind_eq_some_iff (Http.denoted_of_document? hnode)).mpr hanswer)
    rw [concludeResolve, hnode, Option.bind_some, hnamed]
    simp only [htext]

theorem concludeStore_eq_ok_iff {gain : Gain} :
    concludeStore body = .ok gain ↔
      ∃ node, Http.document? body = some node ∧
        ∃ v, IsWriteAnswer node v ∧ gain = .version v := by
  constructor
  · intro h
    rw [concludeStore] at h
    split at h
    · cases h
    rename_i v hv
    obtain ⟨node, hnode, hv⟩ := Option.bind_eq_some_iff.mp hv
    obtain rfl := Except.ok.inj h
    exact ⟨node, hnode, v, (ofAnswer?_eq_some_iff (Http.denoted_of_document? hnode)).mp hv, rfl⟩
  · rintro ⟨node, hnode, v, hanswer, rfl⟩
    rw [concludeStore, hnode, Option.bind_some,
      (ofAnswer?_eq_some_iff (Http.denoted_of_document? hnode)).mpr hanswer]

/-- An answer that means success and does not hold what was asked for is unreadable. -/
theorem kind_of_concludeSuccess {op : Operation} {f : Failure}
    (h : op.concludeSuccess body = .error f) : f.kind = .invalidData := by
  cases op with
  | resolve key =>
    simp only [concludeSuccess, concludeResolve] at h
    split at h
    · cases h
      rfl
    · split at h
      · cases h
      · cases h
        rfl
  | store key content =>
    simp only [concludeSuccess, concludeStore] at h
    split at h
    · cases h
      rfl
    · cases h
  | remove key => cases h

/-- What decides about an operation: whether there is a reply, and of which status. -/
inductive Verdict (op : Operation) (url : Url) : Reply → Except Failure Gain → Prop where
  | lost : Verdict op url .lost (.error (op.unreached (Http.notSent url)))
  | success {status : Nat} {body : Option (List UInt8)} (h : Http.isSuccess status = true) :
    Verdict op url (.response status body) (op.concludeSuccess body)
  | notFound {body : Option (List UInt8)} :
    Verdict op url (.response 404 body) (op.concludeNotFound body)
  | refused {status : Nat} {body : Option (List UInt8)} (h : Http.isSuccess status = false)
    (hstatus : status ≠ 404) :
    Verdict op url (.response status body) (.error (Http.statusFailure op.refusedWords status body))

theorem verdict_conclude (op : Operation) (url : Url) (reply : Reply) :
    op.Verdict url reply (op.conclude url reply) := by
  cases reply with
  | lost => exact .lost
  | response status body =>
    rw [conclude]
    split
    · rename_i h
      exact .success h
    split
    · rename_i h
      subst h
      exact .notFound
    · rename_i h hstatus
      exact .refused (Bool.not_eq_true _ ▸ h) hstatus

/-- An operation that a missing secret defeats succeeds if and only if the reply carries a document
that it succeeds with. -/
theorem conclude_eq_ok_iff {op : Operation} {gain : Gain} {p : Node → Prop}
    (hnotFound : ∀ body, op.concludeNotFound body ≠ .ok gain)
    (hsuccess : ∀ body, op.concludeSuccess body = .ok gain ↔
      ∃ node, Http.document? body = some node ∧ p node) (url : Url) (reply : Reply) :
    op.conclude url reply = .ok gain ↔ ∃ node, reply.Carries node ∧ p node := by
  have hverdict := verdict_conclude op url reply
  generalize op.conclude url reply = outcome at hverdict ⊢
  cases hverdict with
  | lost => simp [Reply.not_carries_lost]
  | success h => simp only [hsuccess, Reply.carries_response_iff h]
  | notFound =>
    have h : Http.isSuccess 404 = false := rfl
    simp [hnotFound, Reply.not_carries_response h]
  | refused h => simp [Reply.not_carries_response h]

/-- A secret is read if and only if the reply carries its answer. -/
theorem conclude_resolve_eq_ok_iff {gain : Gain} {reply : Reply} :
    conclude (.resolve key) url reply = .ok gain ↔
      ∃ node text, reply.Carries node ∧ IsReadAnswer node text ∧ gain = .content text := by
  have hsuccess : ∀ body, concludeSuccess (.resolve key) body = .ok gain ↔
      ∃ node, Http.document? body = some node ∧
        ∃ text, IsReadAnswer node text ∧ gain = .content text :=
    fun _ => concludeResolve_eq_ok_iff
  rw [conclude_eq_ok_iff (fun _ h => by cases h) hsuccess]
  simp only [exists_and_left]

/-- A secret is written if and only if the reply carries the answer with its version. -/
theorem conclude_store_eq_ok_iff {gain : Gain} {reply : Reply} :
    conclude (.store key content) url reply = .ok gain ↔
      ∃ node v, reply.Carries node ∧ IsWriteAnswer node v ∧ gain = .version v := by
  have hsuccess : ∀ body, concludeSuccess (.store key content) body = .ok gain ↔
      ∃ node, Http.document? body = some node ∧
        ∃ v, IsWriteAnswer node v ∧ gain = .version v :=
    fun _ => concludeStore_eq_ok_iff
  rw [conclude_eq_ok_iff (fun _ h => by cases h) hsuccess]
  simp only [exists_and_left]

/-- A secret is removed if and only if the status says that it is, or that there was none. -/
theorem conclude_remove_eq_ok_iff {gain : Gain} {reply : Reply} :
    conclude (.remove key) url reply = .ok gain ↔
      gain = .nothing ∧ ∃ status body, reply = .response status body ∧
        ((200 ≤ status ∧ status < 300) ∨ status = 404) := by
  have hverdict := verdict_conclude (.remove key) url reply
  generalize conclude (.remove key) url reply = outcome at hverdict ⊢
  simp only [← Http.isSuccess_iff]
  cases hverdict with
  | lost => simp
  | success h => simpa [concludeSuccess, h] using eq_comm
  | notFound => simpa [concludeNotFound] using eq_comm
  | refused h hstatus => simp [h, hstatus]

/-- There is no secret if and only if the status says so. -/
theorem conclude_resolve_eq_secretNotFound_iff {name : String} {reply : Reply} :
    conclude (.resolve key) url reply = .error ⟨.secretNotFound, name⟩ ↔
      name = key ∧ ∃ body, reply = .response 404 body := by
  have hverdict := verdict_conclude (.resolve key) url reply
  generalize conclude (.resolve key) url reply = outcome at hverdict ⊢
  cases hverdict with
  | lost => simp [unreached, Failure.network]
  | success h =>
    constructor
    · intro hnone
      cases kind_of_concludeSuccess hnone
    · rintro ⟨-, body, heq⟩
      cases heq
      cases h
  | notFound => simpa [concludeNotFound] using eq_comm
  | refused h hstatus =>
    constructor
    · intro hnone
      have hkind := Http.signifies_statusKind ‹Nat›
      rw [show Http.statusKind _ = .secretNotFound from
        congrArg Failure.kind (Except.error.inj hnone)] at hkind
      cases hkind
    · rintro ⟨-, body, heq⟩
      cases heq
      exact absurd rfl hstatus

/-- The operation has no meaning of its own for the status. -/
def Refuses (op : Operation) (status : Nat) : Prop :=
  ¬ (200 ≤ status ∧ status < 300) ∧ (status = 404 → ∃ key content, op = .store key content)

/-- Such a status is told in numbers, with the body. -/
theorem conclude_of_refuses {op : Operation} (h : op.Refuses status) :
    op.conclude url (.response status body)
      = .error (Http.statusFailure op.refusedWords status body) := by
  rw [conclude, if_neg (fun hsuccess => h.1 (Http.isSuccess_iff.mp hsuccess))]
  split
  · rename_i hstatus
    obtain ⟨key, content, rfl⟩ := h.2 hstatus
    rw [hstatus, concludeNotFound]
  · rfl

end Operation

end Secrets

namespace Services

/-- An operation whose reply arrives comes to what the reply says. -/
theorem outcome?_reply {s : Services} {i : Nat} {op : Secrets.Operation} {r : Request}
    (hi : s.tasks[i]? = some ⟨.secret op, .exchanging r⟩) (env : Surroundings) (reply : Reply) :
    (s.step env (.reply i reply)).1.outcome? i = some (.secret (op.conclude r.url reply)) := by
  have htask : (s.step env (.reply i reply)).1.tasks[i]?
      = some ⟨.secret op, .finished (.secret (op.conclude r.url reply))⟩ := by
    rw [step, receive, hi]
    exact tasks_enter_self hi _
  rw [outcome?, htask]

end Services

open Json Secrets Operation

/-- **What the store answers decides what comes of an operation, and nothing else does.** -/
theorem answers_decide :
    -- A secret is read, or written, if and only if the document of its answer says so.
    (∀ (key : String) (url : Url) (reply : Reply) (gain : Gain),
      conclude (.resolve key) url reply = .ok gain ↔
        ∃ node text, reply.Carries node ∧ IsReadAnswer node text ∧ gain = .content text) ∧
    (∀ (key content : String) (url : Url) (reply : Reply) (gain : Gain),
      conclude (.store key content) url reply = .ok gain ↔
        ∃ node v, reply.Carries node ∧ IsWriteAnswer node v ∧ gain = .version v) ∧
    -- Whether there is no secret, or one is removed, is a matter of the status alone.
    (∀ (key name : String) (url : Url) (reply : Reply),
      conclude (.resolve key) url reply = .error ⟨.secretNotFound, name⟩ ↔
        name = key ∧ ∃ body, reply = .response 404 body) ∧
    (∀ (key : String) (url : Url) (reply : Reply) (gain : Gain),
      conclude (.remove key) url reply = .ok gain ↔
        gain = .nothing ∧ ∃ status body, reply = .response status body ∧
          ((200 ≤ status ∧ status < 300) ∨ status = 404)) ∧
    -- Every other answer of a successful status is unreadable.
    (∀ (op : Operation) (url : Url) (status : Nat) (body : Option (List UInt8)) (f : Failure),
      200 ≤ status ∧ status < 300 → op.conclude url (.response status body) = .error f →
        f.kind = .invalidData) ∧
    -- Every other status is told, with the body.
    (∀ (op : Operation) (url : Url) (status : Nat) (body : Option (List UInt8)),
      op.Refuses status → ∃ kind, Http.Signifies status kind ∧
        op.conclude url (.response status body) = .error ⟨kind,
          op.refusedWords ++ " with status " ++ toString status ++ ": " ++ Http.bodyText body⟩) ∧
    Http.bodyText none = "" ∧
    (∀ text : String, Http.bodyText (some (Text.Utf8.encode text.toList)) = text) ∧
    -- No answer is a failure of the network.
    (∀ (op : Operation) (url : Url), ∃ detail, op.conclude url .lost = .error ⟨.network, detail⟩) ∧
    -- An operation that waits for its answer comes to nothing but this.
    ∀ (s : Services) (env : Surroundings) (i : Nat) (op : Operation) (r : Request) (reply : Reply),
      s.tasks[i]? = some ⟨.secret op, .exchanging r⟩ →
        (s.step env (.reply i reply)).1.outcome? i = some (.secret (op.conclude r.url reply)) := by
  refine ⟨fun _ _ _ _ => conclude_resolve_eq_ok_iff, fun _ _ _ _ _ => conclude_store_eq_ok_iff,
    fun _ _ _ _ => conclude_resolve_eq_secretNotFound_iff,
    fun _ _ _ _ => conclude_remove_eq_ok_iff, ?_, ?_, rfl, ?_, fun _ _ => ⟨_, rfl⟩,
    fun s env i op r reply hi => Services.outcome?_reply hi env reply⟩
  · intro op url status body f hstatus hf
    rw [conclude, if_pos (Http.isSuccess_iff.mpr hstatus)] at hf
    exact kind_of_concludeSuccess hf
  · intro op url status body hrefuses
    exact ⟨_, Http.signifies_statusKind status, conclude_of_refuses hrefuses⟩
  · intro text
    rw [Http.bodyText, Text.Utf8.decodeLossy_encode, String.ofList_toList]

/-- The object of a secret with two contents, the first of which is no text. -/
def twoContents : Node :=
  .object [("content".toList.map some, .number ['1']),
    ("content".toList.map some, .string [some 'a'])]

/-- An answer that gives its inner part in an array. -/
def twoAnswered : Reply :=
  .response 200 (some (Text.Utf8.encode
    "\x7b\"data\":[\x7b\"content\":1,\"content\":\"a\"\x7d]\x7d".toList))

theorem carries_twoAnswered :
    twoAnswered.Carries (.object [("data".toList.map some, .array [twoContents])]) := by
  refine ⟨200, _, rfl, by decide, by decide, ?_⟩
  rw [Text.Utf8.decode_encode, ← parse?_eq_some_iff]
  simp [parse?, scanValue, scanItems, scanMembers, scanString, skip, isSpace, scanNumber,
    scanUnsigned, scanDigits, scanFraction, scanExponent, twoContents]

theorem isReadAnswer_twoContents :
    IsReadAnswer (.object [("data".toList.map some, .array [twoContents])]) "a" := by
  refine ⟨.array [twoContents], twoContents, ?_, .array 0 rfl, ?_⟩
  · exact .object (.cons ⟨means_map_some (by decide), rfl⟩ .nil)
      (.cons (.of_mem List.mem_cons_self (by decide)) .nil)
  · have hname : Means ("content".toList.map some) contentName.toList :=
      means_map_some (by decide)
    refine .last [(contentName.toList, .number ['1'])] []
      (.cons ⟨hname, rfl⟩ (.cons ⟨hname, rfl⟩ .nil)) ?_ List.not_mem_nil (.plain (by decide) .nil)
    simp only [List.forall_mem_cons]
    exact ⟨.number (by decide +kernel), .string (.plain (by decide) .nil), List.forall_mem_nil _⟩

/-- A request for a secret. -/
def twoRequest : Request := (Operation.resolve "k").request teamFolder "s.root"

/-- Services with one errand, which waits for the reply to its request. -/
def twoServices : Services :=
  ⟨teamFolder, .initial "", none, none, [], [], #[⟨.secret (.resolve "k"), .exchanging twoRequest⟩]⟩

/-- Of two contents the last one counts. A body that breaks off is unreadable where the status means
success, and empty in what is told about any other status. -/
theorem answers_decide_twoContents :
    conclude (.resolve "k") twoRequest.url twoAnswered = .ok (.content "a") ∧
      (∃ f, conclude (.resolve "k") twoRequest.url (.response 200 none) = .error f ∧
        f.kind = .invalidData) ∧
      conclude (.remove "k") twoRequest.url (.response 503 none)
        = .error ⟨.network, "Failed to destroy secret k with status 503: "⟩ ∧
      (twoServices.step ⟨.epoch, 0, .empty⟩ (.reply 0 twoAnswered)).1.outcome? 0
        = some (.secret (.ok (.content "a"))) := by
  obtain ⟨hread, -, -, -, hunreadable, hrefused, hempty, -, -, hends⟩ := answers_decide
  have hcontent : conclude (.resolve "k") twoRequest.url twoAnswered = .ok (.content "a") :=
    (hread _ _ _ _).mpr ⟨_, _, carries_twoAnswered, isReadAnswer_twoContents, rfl⟩
  refine ⟨hcontent, ⟨_, rfl, hunreadable (.resolve "k") twoRequest.url 200 none _ (by decide) rfl⟩,
    ?_, ?_⟩
  · obtain ⟨kind, hkind, heq⟩ :=
      hrefused (.remove "k") twoRequest.url 503 none ⟨by decide, fun h => by cases h⟩
    cases hkind
    rw [heq, hempty]
    decide
  · rw [hends twoServices ⟨.epoch, 0, .empty⟩ 0 (.resolve "k") twoRequest twoAnswered rfl, hcontent]

end VaultTokens
