import VaultTokens.Proofs.PropertyReads

/-!
# Secrets in settings

Three settings are secrets: the token of the fallback strategy, the inline service account token and
the token that is renewed in place. Whoever looks at settings, or at the reason for which they are
refused, sees whether there is such a token, and nothing else of it. This is said by comparing two
runs: where two maps of properties, or two choices, differ in secrets only, and each secret is there
in both or in neither, they end alike (`EndAlike`). Both are refused for one reason, or both give
settings that are the same but for the secrets and look the same.

## Main results

* `VaultSettings.make_alike`, `KubernetesSettings.make_alike`, `TokenSettings.make_alike` — settings
  that are made of choices
* `Properties.setup_alike` — a setup that is loaded
* `secrets_hidden` — all of them, with what they look like
-/

namespace VaultTokens

/-! ### Two secrets, two endings -/

namespace Text

variable {s t : String} {a b : Option String}

/-- Two secrets between which nobody can tell: they are one, or neither is blank. -/
def Exchangeable (s t : String) : Prop :=
  s = t ∨ isAllBlank s = false ∧ isAllBlank t = false

theorem Exchangeable.isAllBlank_eq (h : Exchangeable s t) : isAllBlank s = isAllBlank t := by
  obtain rfl | ⟨hs, ht⟩ := h
  · rfl
  · rw [hs, ht]

theorem Exchangeable.eq_empty_iff (h : Exchangeable s t) : s = "" ↔ t = "" := by
  obtain rfl | ⟨hs, ht⟩ := h
  · rfl
  · constructor
    · rintro rfl
      cases hs
    · rintro rfl
      cases ht

/-- What is shown of a secret is whether there is one. -/
theorem optional_hidden_eq (h : a.isSome = b.isSome) :
    optional (a.map fun _ => hidden) = optional (b.map fun _ => hidden) := by
  cases a <;> cases b <;> first | rfl | cases h

end Text

section Rel

variable {α β : Type} {r : α → α → Prop} {a b : Option α}

theorem isSome_eq_of_rel (h : Option.Rel r a b) : a.isSome = b.isSome := by
  cases h <;> rfl

theorem map_eq_of_rel {f : α → β} (h : Option.Rel r a b) (hf : ∀ x y, r x y → f x = f y) :
    a.map f = b.map f := by
  cases h with
  | none => rfl
  | some hxy => exact congrArg some (hf _ _ hxy)

end Rel

/-- Two attempts to make settings end alike: both are refused for the same reason, or both succeed,
with settings that are related. -/
inductive EndAlike {α : Type} (related : α → α → Prop) :
    Except Refusal α → Except Refusal α → Prop where
  /-- Both are refused. -/
  | refused (r : Refusal) : EndAlike related (.error r) (.error r)
  /-- Both succeed. -/
  | made {a b : α} (h : related a b) : EndAlike related (.ok a) (.ok b)

namespace EndAlike

variable {α β : Type} {R : α → α → Prop} {S : β → β → Prop} {x y : Except Refusal α}
  {f g : α → Except Refusal β}

theorem mono {R' : α → α → Prop} (h : EndAlike R x y) (himp : ∀ a b, R a b → R' a b) :
    EndAlike R' x y := by
  cases h with
  | refused r => exact .refused r
  | made hab => exact .made (himp _ _ hab)

theorem bind (h : EndAlike R x y) (hnext : ∀ a b, R a b → EndAlike S (f a) (g b)) :
    EndAlike S (x >>= f) (y >>= g) := by
  cases h with
  | refused r => exact .refused r
  | made hab => exact hnext _ _ hab

/-- What is read first and is the same decides nothing. -/
theorem bind_same (hnext : ∀ a, EndAlike S (f a) (g a)) : EndAlike S (x >>= f) (x >>= g) := by
  cases x with
  | error r => exact .refused r
  | ok a => exact hnext a

end EndAlike

/-! ### The settings of the secret client -/

namespace VaultSettings

/-- Settings that are the same but for the token of the fallback strategy, which both have or
neither. -/
structure Alike (s t : VaultSettings) : Prop where
  url : s.url = t.url
  method : s.method = t.method
  fallbackToken : s.fallbackToken.isSome = t.fallbackToken.isSome
  healthCheck : s.healthCheck = t.healthCheck
  healthPath : s.healthPath = t.healthPath
  standbyOk : s.standbyOk = t.standbyOk
  secretPath : s.secretPath = t.secretPath
  folder : s.folder = t.folder
  timeout : s.timeout = t.timeout

/-- Choices that differ in the token of the fallback strategy only. -/
structure Choices.DifferInSecret (c d : Choices) : Prop where
  shown : { d with fallbackToken := c.fallbackToken } = c
  hidden : Option.Rel Text.Exchangeable c.fallbackToken d.fallbackToken

theorem Alike.describe_eq {s t : VaultSettings} (h : Alike s t) : s.describe = t.describe := by
  rw [describe, describe, h.url, h.method, Text.optional_hidden_eq h.fallbackToken, h.healthCheck,
    h.healthPath, h.standbyOk, h.secretPath, h.folder, h.timeout]

/-- **Whether settings are made does not depend on which secret is chosen**, and neither does any
other setting. -/
theorem make_alike {c d : Choices} (h : c.DifferInSecret d) : EndAlike Alike (make c) (make d) := by
  obtain ⟨hshown, hhidden⟩ := h
  obtain ⟨url, method, token, healthCheck, healthPath, standbyOk, secretPath, folder, timeout⟩ := d
  generalize c.fallbackToken = secret at hshown hhidden
  subst hshown
  have hempty : secret.getD "" = "" ↔ token.getD "" = "" := by
    cases hhidden with
    | none => rfl
    | some htokens => exact htokens.eq_empty_iff
  rw [make, make]
  cases readUrl url with
  | error r => exact .refused r
  | ok url =>
    simp only
    split
    · exact .refused _
    · simp only [hempty]
      split
      · exact .refused _
      · exact .made ⟨rfl, rfl, isSome_eq_of_rel hhidden, rfl, rfl, rfl, rfl, rfl, rfl⟩

end VaultSettings

/-! ### The settings of the strategies -/

namespace KubernetesSettings

/-- Settings that are the same but for the inline service account token, which both have or
neither. -/
structure Alike (s t : KubernetesSettings) : Prop where
  url : s.url = t.url
  role : s.role = t.role
  inlineToken : s.inlineToken.isSome = t.inlineToken.isSome
  tokenFile : s.tokenFile = t.tokenFile
  threshold : s.threshold = t.threshold
  renewal : s.renewal = t.renewal

/-- Choices that differ in the inline service account token only. -/
structure Choices.DifferInSecret (c d : Choices) : Prop where
  shown : { d with inlineToken := c.inlineToken } = c
  hidden : Option.Rel Text.Exchangeable c.inlineToken d.inlineToken

theorem Alike.describe_eq {s t : KubernetesSettings} (h : Alike s t) : s.describe = t.describe := by
  rw [describe, describe, h.url, h.role, Text.optional_hidden_eq h.inlineToken, h.tokenFile,
    h.threshold, h.renewal]

/-- **Whether settings are made does not depend on which secret is chosen**, and neither does any
other setting. -/
theorem make_alike {c d : Choices} (h : c.DifferInSecret d) : EndAlike Alike (make c) (make d) := by
  obtain ⟨hshown, hhidden⟩ := h
  obtain ⟨url, role, token, tokenFile, threshold, renewal⟩ := d
  generalize c.inlineToken = secret at hshown hhidden
  subst hshown
  have hkept : (secret.filter fun t => !Text.isAllBlank t).isSome
      = (token.filter fun t => !Text.isAllBlank t).isSome := by
    cases hhidden with
    | none => rfl
    | some htokens =>
      rw [Option.filter_some, Option.filter_some, htokens.isAllBlank_eq]
      split <;> rfl
  rw [make, make]
  cases readUrl url with
  | error r => exact .refused r
  | ok url =>
    simp only
    split
    · exact .made ⟨rfl, rfl, hkept, rfl, rfl, rfl⟩
    · exact .refused _

end KubernetesSettings

namespace TokenSettings

/-- Settings that are the same but for the token. -/
structure Alike (s t : TokenSettings) : Prop where
  url : s.url = t.url
  renewal : s.renewal = t.renewal

/-- Choices that differ in the token only. -/
structure Choices.DifferInSecret (c d : Choices) : Prop where
  shown : { d with token := c.token } = c
  hidden : Text.Exchangeable c.token d.token

theorem Alike.describe_eq {s t : TokenSettings} (h : Alike s t) : s.describe = t.describe := by
  rw [describe, describe, h.url, h.renewal]

/-- **Whether settings are made does not depend on which secret is chosen**, and neither does any
other setting. -/
theorem make_alike {c d : Choices} (h : c.DifferInSecret d) : EndAlike Alike (make c) (make d) := by
  obtain ⟨hshown, hhidden⟩ := h
  obtain ⟨url, token, renewal⟩ := d
  generalize c.token = secret at hshown hhidden
  subst hshown
  rw [make, make]
  cases readUrl url with
  | error r => exact .refused r
  | ok url =>
    simp only [hhidden.isAllBlank_eq]
    split
    · split
      · exact .refused _
      · exact .made ⟨rfl, rfl⟩
    · exact .refused _

end TokenSettings

/-! ### A setup -/

/-- Setups that are the same but for the secrets in them. -/
structure Setup.Alike (s t : Setup) : Prop where
  vault : s.vault.Alike t.vault
  kubernetes : Option.Rel KubernetesSettings.Alike s.kubernetes t.kubernetes
  token : Option.Rel TokenSettings.Alike s.token t.token

theorem Setup.Alike.describe_eq {s t : Setup} (h : Alike s t) : s.describe = t.describe := by
  rw [describe, describe, h.vault.describe_eq,
    map_eq_of_rel h.kubernetes fun _ _ => KubernetesSettings.Alike.describe_eq,
    map_eq_of_rel h.token fun _ _ => TokenSettings.Alike.describe_eq]

/-- The properties that are secrets. -/
def Property.secrets : List Property := [.fallbackToken, .inlineToken, .token]

namespace Properties

variable {values v w : Properties} {p : Property}

/-- Whether a property is there and not blank. -/
def IsNamed (values : Properties) (p : Property) : Prop :=
  ∃ raw, values p.key = some raw ∧ Text.isAllBlank raw = false

/-- Maps that differ in the values of secrets only; each secret is there in both or in neither. -/
structure DifferInSecrets (v w : Properties) : Prop where
  shown : ∀ key, (∀ p ∈ Property.secrets, key ≠ p.key) → v key = w key
  hidden : ∀ p ∈ Property.secrets, v.IsNamed p ↔ w.IsNamed p

theorem isNamed_iff : values.IsNamed p ↔ ∃ text, values.text? p = some text := by
  constructor
  · rintro ⟨raw, hraw, hnamed⟩
    refine ⟨Text.trim raw, text?_eq_some_iff.mpr ⟨raw, hraw, ?_, ?_⟩⟩
    · rw [Text.trim, String.toList_ofList]
      exact Text.trims_trimChars raw.toList
    · rw [ne_eq, Text.trim_eq_empty_iff, hnamed]
      exact Bool.false_ne_true
  · rintro ⟨text, htext⟩
    obtain ⟨raw, hraw, htrims, hne⟩ := text?_eq_some_iff.mp htext
    exact ⟨raw, hraw, htrims.all_isBlank.trans (isAllBlank_of_trims htrims hne)⟩

/-- A property that is no secret is read alike. -/
theorem DifferInSecrets.text?_eq (h : DifferInSecrets v w) (hp : p ∉ Property.secrets) :
    v.text? p = w.text? p := by
  have hkey : v p.key = w p.key :=
    h.shown p.key fun q hq hpq => hp (Property.key_injective hpq ▸ hq)
  rw [text?, text?, hkey]

/-- A property that is a secret is read as secrets that may stand for each other. -/
theorem DifferInSecrets.exchangeable (h : DifferInSecrets v w) (hp : p ∈ Property.secrets) :
    Option.Rel Text.Exchangeable (v.text? p) (w.text? p) := by
  have hiff := h.hidden p hp
  rw [isNamed_iff, isNamed_iff] at hiff
  cases hv : v.text? p with
  | none =>
    cases hw : w.text? p with
    | none => exact .none
    | some t =>
      obtain ⟨s, hs⟩ := hiff.mpr ⟨t, hw⟩
      cases hv.symm.trans hs
  | some s =>
    obtain ⟨t, hw⟩ := hiff.mp ⟨s, hv⟩
    rw [hw]
    exact .some (.inr ⟨(text?_eq_some_iff.mp hv).isAllBlank, (text?_eq_some_iff.mp hw).isAllBlank⟩)

theorem vault_alike (h : DifferInSecrets v w) : EndAlike VaultSettings.Alike v.vault w.vault := by
  have htext : ∀ p, p ∉ Property.secrets → v.text? p = w.text? p := fun _ => h.text?_eq
  have hurl := htext .url (by decide)
  have hcheck := htext .healthCheck (by decide)
  have hstandby := htext .standbyOk (by decide)
  have htimeout := htext .timeout (by decide)
  rw [vault, vault, required_congr hurl, read_congr _ hcheck, read_congr _ hstandby,
    read_congr _ htimeout]
  refine .bind_same fun url => .bind_same fun check => .bind_same fun standby =>
    .bind_same fun timeout => VaultSettings.make_alike ⟨?_, h.exchangeable (by decide)⟩
  rw [htext .method (by decide), htext .healthPath (by decide), htext .secretPath (by decide),
    htext .folder (by decide)]

theorem kubernetes_alike (h : DifferInSecrets v w) :
    EndAlike (Option.Rel KubernetesSettings.Alike) v.kubernetes w.kubernetes := by
  have htext : ∀ p, p ∉ Property.secrets → v.text? p = w.text? p := fun _ => h.text?_eq
  have hurl := htext .url (by decide)
  have hrenewal := htext .kubernetesRenewal (by decide)
  have hbuffer := htext .kubernetesBuffer (by decide)
  have hretries := htext .maxRetries (by decide)
  have hthreshold := htext .threshold (by decide)
  rw [kubernetes, kubernetes, htext .role (by decide)]
  cases w.text? .role with
  | none => exact .made .none
  | some role =>
    simp only [required_congr hurl, read_congr _ hrenewal, read_congr _ hbuffer,
      read_congr _ hretries, read_congr _ hthreshold]
    refine .bind_same fun enabled => .bind_same fun buffer => .bind_same fun retries =>
      .bind_same fun renewal => .bind_same fun url => .bind_same fun threshold => ?_
    refine (KubernetesSettings.make_alike ⟨?_, h.exchangeable (by decide)⟩).bind
      fun _ _ halike => .made (.some halike)
    rw [htext .tokenFile (by decide)]

theorem token_alike (h : DifferInSecrets v w) :
    EndAlike (Option.Rel TokenSettings.Alike) v.token w.token := by
  have htext : ∀ p, p ∉ Property.secrets → v.text? p = w.text? p := fun _ => h.text?_eq
  have hurl := htext .url (by decide)
  have hrenewal := htext .tokenRenewal (by decide)
  have httl := htext .tokenTtl (by decide)
  have hbuffer := htext .tokenBuffer (by decide)
  have hretries := htext .maxRetries (by decide)
  rw [token, token]
  have htokens : Option.Rel Text.Exchangeable (v.text? .token) (w.text? .token) :=
    h.exchangeable (by decide)
  generalize v.text? .token = a at htokens
  generalize w.text? .token = b at htokens
  cases htokens with
  | none => exact .made .none
  | some hsecret =>
    simp only [required_congr hurl, read_congr _ hrenewal, read_congr _ httl, read_congr _ hbuffer,
      read_congr _ hretries]
    refine .bind_same fun enabled => .bind_same fun ttl => .bind_same fun buffer =>
      .bind_same fun retries => .bind_same fun renewal => .bind_same fun url => ?_
    exact (TokenSettings.make_alike ⟨rfl, hsecret⟩).bind fun _ _ halike => .made (.some halike)

/-- **A setup that is loaded does not depend on which secrets there are**, but for the secrets. -/
theorem setup_alike (h : DifferInSecrets v w) : EndAlike Setup.Alike v.setup w.setup := by
  rw [setup, setup]
  refine (vault_alike h).bind fun _ _ hvault => (kubernetes_alike h).bind fun _ _ hkubernetes =>
    (token_alike h).bind fun _ _ htoken => .made ⟨hvault, hkubernetes, htoken⟩

end Properties

/-- **Secrets are not seen in settings.** Two maps of properties that differ in secrets only, each
of them there in both or in neither, are refused for one reason or give two setups that look the
same and are the same but for the secrets. So it is with the settings of the secret client, of the
Kubernetes strategy and of the token strategy if they are made of choices that differ in one secret
only, which is blank in neither. -/
theorem secrets_hidden :
    (∀ v w : Properties, v.DifferInSecrets w →
        EndAlike (fun s t => s.describe = t.describe ∧ s.Alike t) v.setup w.setup) ∧
      (∀ c d : VaultSettings.Choices, c.DifferInSecret d →
        EndAlike (fun s t => s.describe = t.describe ∧ s.Alike t)
          (VaultSettings.make c) (VaultSettings.make d)) ∧
      (∀ c d : KubernetesSettings.Choices, c.DifferInSecret d →
        EndAlike (fun s t => s.describe = t.describe ∧ s.Alike t)
          (KubernetesSettings.make c) (KubernetesSettings.make d)) ∧
      ∀ c d : TokenSettings.Choices, c.DifferInSecret d →
        EndAlike (fun s t => s.describe = t.describe ∧ s.Alike t)
          (TokenSettings.make c) (TokenSettings.make d) := by
  refine ⟨fun v w h => ?_, fun c d h => ?_, fun c d h => ?_, fun c d h => ?_⟩
  · exact (Properties.setup_alike h).mono fun _ _ halike => ⟨halike.describe_eq, halike⟩
  · exact (VaultSettings.make_alike h).mono fun _ _ halike => ⟨halike.describe_eq, halike⟩
  · exact (KubernetesSettings.make_alike h).mono fun _ _ halike => ⟨halike.describe_eq, halike⟩
  · exact (TokenSettings.make_alike h).mono fun _ _ halike => ⟨halike.describe_eq, halike⟩

/-- A server with both strategies, where one text is every secret. -/
def guarded (secret : String) : Properties :=
  fun key => [(Property.url.key, "http://vault:8200"), (Property.fallbackToken.key, secret),
    (Property.role.key, "app"), (Property.inlineToken.key, secret),
    (Property.token.key, secret), (Property.maxRetries.key, "3")].lookup key

theorem guarded_differInSecrets : (guarded "s.first").DifferInSecrets (guarded "s.second") where
  shown key hkey := by
    simp only [Property.secrets, List.forall_mem_cons] at hkey
    obtain ⟨hfallback, hinline, htoken, -⟩ := hkey
    simp [guarded, List.lookup_cons, beq_false_of_ne hfallback, beq_false_of_ne hinline,
      beq_false_of_ne htoken]
  hidden p hp := by
    have hvalue : ∀ p ∈ Property.secrets, guarded "s.first" p.key = some "s.first" ∧
        guarded "s.second" p.key = some "s.second" := by decide +kernel
    exact iff_of_true ⟨_, (hvalue p hp).1, by decide⟩ ⟨_, (hvalue p hp).2, by decide⟩

/-- Two setups with other secrets look the same. -/
theorem secrets_hidden_guarded :
    (guarded "s.first").DifferInSecrets (guarded "s.second") ∧
      ∃ s t, (guarded "s.first").setup = .ok s ∧ (guarded "s.second").setup = .ok t ∧
        s.vault.fallbackToken ≠ t.vault.fallbackToken ∧ s.describe = t.describe := by
  have hfirst : (guarded "s.first").setup.toOption.map (·.vault.fallbackToken)
      = some (some "s.first") := by decide +kernel
  have hsecond : (guarded "s.second").setup.toOption.map (·.vault.fallbackToken)
      = some (some "s.second") := by decide +kernel
  have halike := secrets_hidden.1 _ _ guarded_differInSecrets
  refine ⟨guarded_differInSecrets, ?_⟩
  generalize (guarded "s.first").setup = x at hfirst halike ⊢
  generalize (guarded "s.second").setup = y at hsecond halike ⊢
  cases halike with
  | refused r => cases hfirst
  | made h =>
    refine ⟨_, _, rfl, rfl, fun heq => ?_, h.1⟩
    have htokens := (Option.some.inj hfirst).symm.trans (heq.trans (Option.some.inj hsecond))
    exact absurd htokens (by decide)

end VaultTokens
