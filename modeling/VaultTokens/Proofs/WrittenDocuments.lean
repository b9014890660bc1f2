import VaultTokens.Login.Method
import VaultTokens.Secrets.Operation

/-!
# Written documents are read back

What is written for a text or an object is spelled so that a scan finds exactly that value wherever
it stands, and leaves what follows. `Spells` says so of a text and a value. Texts are spelled by
their literals, character by character; an object is spelled if its members are, by induction on
the members with what follows as a parameter.

A scan is given fuel, which is a matter of the scan alone: twice the length of what spells a value
is enough for it, and of a part for the part.

## Main results

* `scanString_literal` — a literal is scanned up to its closing quotation mark
* `spells_writeText`, `spells_writeObject` — what is written spells what was meant
* `document?_of_spells` — a document that spells a value is read as that value
* `written_read_back` — secrets and logins are read back as they were written
-/

namespace VaultTokens

namespace Json

/-! ### Strings -/

theorem hex4?_control {n : Nat} (hn : n < 32) :
    hex4? '0' '0' (hexDigit (n / 16)) (hexDigit (n % 16)) = some n := by
  have key : ∀ n : Fin 32, hex4? '0' '0' (hexDigit (n.val / 16)) (hexDigit (n.val % 16))
      = some n.val := by decide
  exact key ⟨n, hn⟩

/-- Scanning the literal of one character and then the rest. -/
theorem scanString_escapeChar_append (c : Char) (rest : List Symbol) :
    scanString ((escapeChar c).map some ++ rest)
      = (scanString rest).map fun r => ((escapeChar c).map some ++ r.1, r.2) := by
  by_cases hshort : c = '\"' ∨ c = '\\' ∨ c = '\x08' ∨ c = '\t' ∨ c = '\n' ∨ c = '\x0c' ∨ c = '\r'
  · rcases hshort with rfl | rfl | rfl | rfl | rfl | rfl | rfl <;>
      simp [escapeChar, scanString, unescape?, Option.map_eq_bind, Function.comp_def]
  simp only [not_or] at hshort
  by_cases hcontrol : c.toNat < 0x20
  · have hescape : escapeChar c
        = ['\\', 'u', '0', '0', hexDigit (c.toNat / 16), hexDigit (c.toNat % 16)] := by
      simp [escapeChar, hshort, hcontrol]
    rw [hescape]
    simp [scanString, hex4?_control hcontrol, Option.map_eq_bind, Function.comp_def]
  · have hplain : escapeChar c = [c] := by simp [escapeChar, hshort, hcontrol]
    rw [hplain, List.map_cons, List.map_nil, List.singleton_append, scanString, if_neg hcontrol]
    · rfl
    all_goals simp_all

/-- **A literal is scanned up to its closing quotation mark.** -/
theorem scanString_literal (s : List Char) (rest : List Symbol) :
    scanString ((literal s).map some ++ some '\"' :: rest) = some ((literal s).map some, rest) := by
  induction s with
  | nil => rfl
  | cons c s ih =>
    rw [show literal (c :: s) = escapeChar c ++ literal s from rfl, List.map_append,
      List.append_assoc, scanString_escapeChar_append, ih]
    rfl

/-! ### What spells a value -/

/-- A text spells a value: wherever it stands, a scan finds that value and leaves what follows. -/
def Spells (text : List Char) (node : Node) : Prop :=
  ∀ (fuel : Nat) (rest : List Symbol), 2 * text.length ≤ fuel →
    scanValue fuel (text.map some ++ rest) = some (node, rest)

/-- The value that a text is written as. -/
def Node.ofText (s : String) : Node := .string ((literal s.toList).map some)

theorem skip_cons_of_not_isSpace {c : Char} (hc : isSpace (some c) = false) (rest : List Symbol) :
    skip (some c :: rest) = some c :: rest := by
  simp [skip, hc]

theorem spells_writeText (s : String) : Spells (writeText s) (.ofText s) := by
  intro fuel rest hfuel
  cases fuel with
  | zero => simp [writeText] at hfuel
  | succ fuel =>
    have hwritten : (writeText s).map some ++ rest
        = some '\"' :: ((literal s.toList).map some ++ some '\"' :: rest) := by
      simp [writeText]
    rw [hwritten, scanValue, skip_cons_of_not_isSpace rfl]
    simp only [scanString_literal]
    rfl

/-- A member that is still to be written: its name, its text and what the text spells. -/
structure Member where
  /-- The name. -/
  name : String
  /-- The text of the value. -/
  text : List Char
  /-- The value. -/
  node : Node
  /-- The text spells the value. -/
  spells : Spells text node

/-- A member as it is written. -/
def Member.written (m : Member) : List Char := writeText m.name ++ ':' :: m.text

/-- A member as it is scanned. -/
def Member.scanned (m : Member) : List Symbol × Node := ((literal m.name.toList).map some, m.node)

/-- What a member is written as, up to its value. -/
theorem Member.map_written_append (m : Member) (rest : List Symbol) :
    m.written.map some ++ rest
      = some '\"' :: ((literal m.name.toList).map some
          ++ some '\"' :: some ':' :: (m.text.map some ++ rest)) := by
  simp [Member.written, writeText]

/-- The last member is scanned up to the closing brace. -/
theorem Member.scanMembers_last (m : Member) {fuel : Nat} (rest : List Symbol)
    (hfuel : 2 * m.text.length ≤ fuel) :
    scanMembers (fuel + 1) (m.written.map some ++ some '\x7d' :: rest)
      = some ([m.scanned], rest) := by
  rw [m.map_written_append, scanMembers, skip_cons_of_not_isSpace rfl]
  simp only [scanString_literal, skip_cons_of_not_isSpace (c := ':') rfl, m.spells fuel _ hfuel,
    skip_cons_of_not_isSpace (c := '\x7d') rfl]
  rfl

/-- A member before others is scanned up to the comma. -/
theorem Member.scanMembers_next (m : Member) {fuel : Nat} (rest : List Symbol)
    (hfuel : 2 * m.text.length ≤ fuel) :
    scanMembers (fuel + 1) (m.written.map some ++ some ',' :: rest)
      = (scanMembers fuel rest).map fun r => (m.scanned :: r.1, r.2) := by
  rw [m.map_written_append, scanMembers, skip_cons_of_not_isSpace rfl]
  simp only [scanString_literal, skip_cons_of_not_isSpace (c := ':') rfl, m.spells fuel _ hfuel,
    skip_cons_of_not_isSpace (c := ',') rfl]
  rfl

/-- Written members in a row, with a comma between each two. -/
def Member.row (members : List Member) : List Char :=
  List.intercalate [','] (members.map Member.written)

theorem Member.row_singleton (m : Member) : Member.row [m] = m.written := by
  simp [Member.row, List.intercalate]

theorem Member.row_cons_cons (m next : Member) (more : List Member) :
    Member.row (m :: next :: more) = m.written ++ ',' :: Member.row (next :: more) := by
  simp [Member.row, List.intercalate]

theorem Member.length_text_lt (m : Member) : m.text.length + 3 ≤ m.written.length := by
  simp only [Member.written, writeText, List.length_append, List.length_cons]
  omega

/-- The members of an object are scanned one after the other: behind a value stands a comma and the
next member, or the closing brace. -/
theorem scanMembers_row (m : Member) (more : List Member) (fuel : Nat) (rest : List Symbol)
    (hfuel : 2 * (Member.row (m :: more)).length ≤ fuel) :
    scanMembers fuel ((Member.row (m :: more)).map some ++ some '\x7d' :: rest)
      = some ((m :: more).map Member.scanned, rest) := by
  have hlength := m.length_text_lt
  induction more generalizing m fuel with
  | nil =>
    rw [Member.row_singleton] at hfuel ⊢
    obtain ⟨fuel, rfl⟩ : ∃ n, fuel = n + 1 := ⟨fuel - 1, by omega⟩
    exact m.scanMembers_last rest (by omega)
  | cons next more ih =>
    rw [Member.row_cons_cons] at hfuel ⊢
    simp only [List.length_append, List.length_cons] at hfuel
    obtain ⟨fuel, rfl⟩ : ∃ n, fuel = n + 1 := ⟨fuel - 1, by omega⟩
    rw [List.map_append, List.map_cons, List.append_assoc, List.cons_append,
      m.scanMembers_next _ (by omega), ih next fuel (by omega) next.length_text_lt]
    rfl

/-- Members in a row begin with the quotation mark of the first name. -/
theorem Member.row_eq_cons (m : Member) (more : List Member) :
    ∃ tail, Member.row (m :: more) = '\"' :: tail := by
  cases more with
  | nil => exact ⟨_, by rw [Member.row_singleton]; rfl⟩
  | cons next more => exact ⟨_, by rw [Member.row_cons_cons]; rfl⟩

/-- **What is written for members spells the object of them.** -/
theorem spells_writeObject (m : Member) (more : List Member) :
    Spells (writeObject ((m :: more).map fun m => (m.name, m.text)))
      (.object ((m :: more).map Member.scanned)) := by
  intro fuel rest hfuel
  have hwritten : writeObject ((m :: more).map fun m => (m.name, m.text))
      = '\x7b' :: Member.row (m :: more) ++ ['\x7d'] := by
    simp only [writeObject, Member.row, List.map_map]
    rfl
  rw [hwritten] at hfuel ⊢
  simp only [List.length_append, List.length_cons, List.length_nil] at hfuel
  obtain ⟨fuel, rfl⟩ : ∃ n, fuel = n + 1 := ⟨fuel - 1, by omega⟩
  have hrow := scanMembers_row m more fuel rest (by omega)
  obtain ⟨tail, htail⟩ := Member.row_eq_cons m more
  rw [htail] at hrow ⊢
  simp only [List.map_append, List.map_cons, List.map_nil, List.cons_append, List.append_assoc,
    List.nil_append] at hrow ⊢
  rw [scanValue, skip_cons_of_not_isSpace rfl]
  simp only [skip_cons_of_not_isSpace (c := '\"') rfl]
  show (scanMembers fuel _).map (fun r => (Node.object r.1, r.2)) = _
  rw [hrow]
  rfl

theorem writeObject_singleton (name : String) (text : List Char) :
    writeObject [(name, text)] = '\x7b' :: (writeText name ++ ':' :: text) ++ ['\x7d'] := by
  simp [writeObject, List.intercalate]

/-! ### Reading what is spelled -/

theorem parse?_of_spells {text : List Char} {node : Node} (h : Spells text node) :
    parse? (text.map some) = some node := by
  have hscan := h (2 * (text.map some).length + 2) [] (by simp)
  rw [List.append_nil] at hscan
  rw [parse?, hscan]
  rfl

/-- **A body that spells a value is the document of it.** -/
theorem document?_of_spells {text : List Char} {node : Node} (h : Spells text node) :
    Http.document? (some (Text.Utf8.encode text)) = some node := by
  rw [Http.document?, Option.bind_some, Text.Utf8.decode_encode, parse?_of_spells h]

/-- The names of written members are read back. -/
theorem named?_scanned (members : List Member) :
    named? (members.map Member.scanned)
      = some (members.map fun m => (m.name.toList, m.node)) := by
  rw [named?]
  induction members with
  | nil => rfl
  | cons m members ih =>
    rw [List.map_cons, List.mapM_cons, ih, Member.scanned, text?_literal]
    rfl

/-- A record of written members has the values of those with its names. -/
theorem record?_scanned (names : List String) (members : List Member) :
    record? names (.object (members.map Member.scanned))
      = names.mapM fun name => only? name.toList (members.map fun m => (m.name.toList, m.node)) := by
  rw [record?, named?_scanned]
  rfl

@[simp]
theorem Node.text?_ofText (s : String) : (Node.ofText s).text? = some s := by
  simp [Node.ofText, Node.text?, text?_literal]

@[simp]
theorem Node.isReadable_ofText (depth : Nat) (s : String) :
    (Node.ofText s).isReadable depth = true := by
  cases depth <;> simp [Node.ofText, Node.isReadable, text?_literal]

/-- A member whose value is a text. -/
def Member.ofText (name s : String) : Member := ⟨name, writeText s, .ofText s, spells_writeText s⟩

/-- A member whose value is an object of one member. -/
def Member.ofMember (name : String) (m : Member) : Member :=
  ⟨name, writeObject [(m.name, m.text)], .object [m.scanned], spells_writeObject m []⟩

end Json

namespace Secrets

open Json

/-- An object of an envelope alone is opened. -/
theorem opened?_scanned (m : Member) (hname : m.name = envelopeName) :
    opened? (.object [m.scanned]) = some m.node := by
  have hrecord := record?_scanned [envelopeName] [m]
  simp only [List.map_cons, List.map_nil] at hrecord
  simp [opened?, hrecord, only?, hname]

/-- The envelope of a content as a member of the store's answer. -/
def enveloped (secret : String) : Member :=
  .ofMember envelopeName (.ofMember envelopeName (.ofText contentName secret))

/-- The content of a secret that was written is found in the store's answer. -/
theorem answered?_enveloped (secret : String) :
    answered? (.object [(enveloped secret).scanned])
      = some [(contentName.toList, .ofText secret)] := by
  have hopened : opened? (enveloped secret).node
      = some (Member.ofMember envelopeName (.ofText contentName secret)).node :=
    opened?_scanned (.ofMember envelopeName (.ofText contentName secret)) rfl
  have hmembers : members? (Member.ofMember envelopeName (.ofText contentName secret)).node
      = some [(contentName.toList, .ofText secret)] := by
    have hnamed := named?_scanned [.ofText contentName secret]
    simpa [members?, Member.ofMember, Member.ofText, Member.scanned] using hnamed
  rw [answered?, opened?_scanned _ rfl, Option.bind_some, hopened, Option.bind_some, hmembers]

/-- An answer around the body of a written secret, as the store sends it. -/
def answerAround (body : String) : List UInt8 :=
  Text.Utf8.encode ("\x7b\"data\":" ++ body ++ "\x7d").toList

/-- The answer around a written secret spells its envelope. -/
theorem document?_answerAround (secret : String) :
    Http.document? (some (answerAround (envelope secret)))
      = some (.object [(enveloped secret).scanned]) := by
  have hspells := spells_writeObject (enveloped secret) []
  have htext : ("\x7b\"data\":" ++ envelope secret ++ "\x7d").toList
      = writeObject [((enveloped secret).name, (enveloped secret).text)] := by
    have henvelope : (envelope secret).toList = (enveloped secret).text := String.toList_ofList
    have hopen : "\x7b\"data\":".toList = '\x7b' :: (writeText envelopeName ++ [':']) := by decide
    have hclose : "\x7d".toList = ['\x7d'] := by decide
    rw [String.toList_append, String.toList_append, henvelope, hopen, hclose,
      writeObject_singleton]
    simp [enveloped, Member.ofMember]
  rw [answerAround, htext]
  exact document?_of_spells hspells

/-- A secret is read back from the answer around its envelope. -/
theorem concludeResolve_answerAround (secret : String) :
    Operation.concludeResolve (some (answerAround (envelope secret))) = .ok (.content secret) := by
  rw [Operation.concludeResolve, document?_answerAround, Option.bind_some, answered?_enveloped]
  simp only [contentIn_singleton, Node.text?_ofText]

/-- Different contents have different envelopes. -/
theorem envelope_injective : Function.Injective envelope := by
  intro s t h
  have hs := concludeResolve_answerAround s
  rw [h, concludeResolve_answerAround t] at hs
  simpa using hs.symm

end Secrets

namespace Login

open Json

/-- The role and the service account token that the document of a login names. -/
def credentials? (node : Node) : Option (String × String) :=
  match record? ["role", "jwt"] node with
  | some [some role, some jwt] => do
    let role ← role.text?
    let jwt ← jwt.text?
    return (role, jwt)
  | _ => none

/-- The document of a login names the role and the token that it was written for. -/
theorem credentials?_kubernetesBody (role jwt : String) :
    (Http.document? (some (Text.Utf8.encode (kubernetesBody role jwt).toList))).bind credentials?
      = some (role, jwt) := by
  have hspells := spells_writeObject (.ofText "role" role) [.ofText "jwt" jwt]
  have hrecord := record?_scanned ["role", "jwt"] [.ofText "role" role, .ofText "jwt" jwt]
  have hdocument : Http.document? (some (Text.Utf8.encode
      (writeObject [("role", writeText role), ("jwt", writeText jwt)]))) = some _ :=
    document?_of_spells hspells
  rw [kubernetesBody, String.toList_ofList, hdocument, Option.bind_some, credentials?, hrecord]
  simp [only?, Member.ofText]

/-- The request of a login sends the document for its role and token. -/
theorem body_kubernetesRequest {server : Url.Locator} {role jwt : String} {r : Request}
    (h : kubernetesRequest server role jwt = .ok r) : r.body = some (kubernetesBody role jwt) := by
  rw [kubernetesRequest, post] at h
  split at h
  · cases h
  · cases h
  · rw [prepare] at h
    split at h
    · rename_i hready
      cases h
      rw [← (Http.ready_eq_ok_iff.1 hready).1]
    · cases h

end Login

/-- **What is written is read back.** A secret of any characters is sent in a body that depends on
nothing but the secret, and whoever reads any key, and is answered with that body inside the store's
envelope, gets exactly this secret; so different secrets have different bodies. In the same way the
document of a login, by itself or of a provider, names exactly its role and its token. -/
theorem written_read_back :
    (∀ key secret : String, ∃ body,
        (∀ (settings : VaultSettings) (token : String) (r : Request),
          Secrets.Operation.prepare settings (.store key secret) token = .ok r →
            r.body = some body) ∧
        (Secrets.Operation.store key secret).body = some body ∧
        ∀ (other : String) (url : Url),
          Secrets.Operation.conclude (.resolve other) url
              (.response 200 (some (Secrets.answerAround body)))
            = .ok (.content secret)) ∧
    (∀ key other secret content : String,
        (Secrets.Operation.store key secret).body = (Secrets.Operation.store other content).body →
          secret = content) ∧
    (∀ role jwt : String,
        (Http.document? (some (Text.Utf8.encode (Login.kubernetesBody role jwt).toList))).bind
            Login.credentials? = some (role, jwt)) ∧
    (∀ (server : Url.Locator) (role jwt : String) (r : Request),
        Login.kubernetesRequest server role jwt = .ok r →
          r.body = some (Login.kubernetesBody role jwt)) ∧
    (∀ (server : Url) (role : String) (account : ServiceAccount) (threshold : Span)
        (files : FileTree) (r : Request),
        (Method.kubernetes server role account threshold).prepare files = .ok r →
          ∃ jwt, account.read files = .ok jwt ∧ r.body = some (Login.kubernetesBody role jwt)) := by
  refine ⟨?_, ?_, Login.credentials?_kubernetesBody, ?_, ?_⟩
  · intro key secret
    refine ⟨Secrets.envelope secret, ?_, rfl, ?_⟩
    · intro settings token r hready
      rw [Secrets.Operation.prepare_eq_ok hready]
      rfl
    · intro other url
      exact Secrets.concludeResolve_answerAround secret
  · intro key other secret content hsame
    exact Secrets.envelope_injective (Option.some.inj hsame)
  · intro server role jwt r hready
    exact Login.body_kubernetesRequest hready
  · intro server role account threshold files r hready
    obtain ⟨jwt, hread, hrequest⟩ := Method.prepare_kubernetes_eq_ok.mp hready
    exact ⟨jwt, hread, Login.body_kubernetesRequest hrequest⟩

end VaultTokens
