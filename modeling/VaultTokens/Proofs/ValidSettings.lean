import VaultTokens.Proofs.PropertyReads
import VaultTokens.Url.Locator

/-!
# Settings that exist are valid

Settings are made of choices, and there is no other way to them: a loader only makes choices out of
properties. This file says what may be chosen, without the way it is checked. The URL has to be one
of the schemes `http` and `https` among the URLs of all schemes; a strategy has to be named, and the
fallback strategy needs a token to serve; role and token must not be blank; and where a time to live
is asked for, be it chosen or filled in, it is no less than five seconds and longer than the buffer.
Choices are refused exactly if they break one of these rules (`Choices.IsValid`), and the settings
that are made keep what was chosen (`Keeps`), so they are valid themselves (`IsValid`).

## Main results

* `Url.exists_parse?_iff` — which text is the URL of a server
* `RenewalPolicy.exists_make_iff`, `VaultSettings.exists_make_iff`,
  `KubernetesSettings.exists_make_iff`, `TokenSettings.exists_make_iff` — what may be chosen
* `Properties.exists_vault_iff`, `Properties.exists_kubernetes_iff`, `Properties.exists_token_iff` —
  which properties can be loaded
* `settings_valid` — all of this together
-/

namespace VaultTokens

/-! ### The URL of a server -/

namespace Url

/-- The scheme of a URL. -/
def Locator.scheme : Locator → String
  | .server url => url.scheme.name
  | .foreign url => String.ofList url.scheme

/-- Whether a text is the URL of a server: a URL with one of two schemes. -/
def IsServer (text : String) : Prop :=
  ∃ l, Locator.parse? text = some l ∧ (l.scheme = "http" ∨ l.scheme = "https")

/-- Whether the printed URL begins with one of the two schemes. -/
def IsHttp (u : Url) : Prop :=
  ∃ rest, u.toString = "http://" ++ rest ∨ u.toString = "https://" ++ rest

theorem isHttp (u : Url) : u.IsHttp := by
  refine ⟨String.ofList (u.credentials.render ++ u.host.render.toList ++ renderPort u.port ++
    Path.render u.path ++ behind '?' u.query ++ behind '#' u.fragment), ?_⟩
  rw [toString_eq, origin]
  cases u.scheme with
  | http =>
    left
    apply String.toList_inj.mp
    simp [Scheme.name]
  | https =>
    right
    apply String.toList_inj.mp
    simp [Scheme.name]

theorem Scheme.name_eq (scheme : Scheme) : scheme.name = "http" ∨ scheme.name = "https" := by
  cases scheme
  · exact .inl rfl
  · exact .inr rfl

/-- A URL that is none of a server has another scheme. -/
theorem Foreign.scheme_ne {text : String} {url : Foreign} (h : Foreign.parse? text = some url)
    (scheme : Scheme) : url.scheme ≠ scheme.name.toList := by
  intro hscheme
  simp only [Foreign.parse?, Option.bind_eq_bind, Option.bind_eq_some_iff] at h
  obtain ⟨⟨name, rest⟩, -, kind, hkind, parts, -, hurl⟩ := h
  cases hurl
  rw [show name = scheme.name.toList from hscheme, Foreign.kind?_name] at hkind
  cases hkind

/-- A text is read as the URL of a server exactly if its scheme is one of two. -/
theorem exists_parse?_iff {text : String} : (∃ url, parse? text = some url) ↔ IsServer text := by
  constructor
  · rintro ⟨url, hurl⟩
    exact ⟨.server url, Locator.parse?_of_server hurl, url.scheme.name_eq⟩
  · rintro ⟨l, hl, hscheme⟩
    rw [Locator.parse?] at hl
    split at hl
    · exact ⟨_, ‹_›⟩
    · obtain ⟨url, hurl, rfl⟩ := Option.map_eq_some_iff.mp hl
      have hne : ∀ scheme : Scheme, String.ofList url.scheme ≠ scheme.name := by
        intro scheme heq
        refine Foreign.scheme_ne hurl scheme ?_
        rw [← heq, String.toList_ofList]
      obtain hscheme | hscheme := hscheme
      · exact absurd hscheme (hne .http)
      · exact absurd hscheme (hne .https)

end Url

theorem exists_readUrl_iff {text : String} :
    (∃ url, readUrl text = .ok url) ↔ Url.IsServer text := by
  rw [← Url.exists_parse?_iff]
  exact exists_congr fun _ => readUrl_eq_ok_iff

/-! ### Policies -/

namespace RenewalPolicy

/-- A time to live, if there is one, is no less than five seconds and longer than the buffer. -/
def Outlasts (ttl : Option UInt64) (buffer : UInt64) : Prop :=
  ∀ t, ttl = some t → 5 ≤ t.toNat ∧ buffer.toNat < t.toNat

/-- The rule that policies keep. -/
def IsValid (p : RenewalPolicy) : Prop := Outlasts p.ttl p.buffer

/-- The rule for what may be chosen. -/
def Choices.IsValid (c : Choices) : Prop := Outlasts c.ttl (c.buffer.getD 30)

/-- A policy has the values that were chosen, or the usual ones. -/
structure Keeps (p : RenewalPolicy) (c : Choices) : Prop where
  ttl : p.ttl = c.ttl
  buffer : p.buffer = c.buffer.getD 30
  enabled : p.enabled = c.enabled.getD true
  maxRetries : p.maxRetries = c.maxRetries.getD 0
  retryDelay : p.retryDelay = c.retryDelay.getD (.ofSecs 5)

theorem outlasts_iff {ttl : Option UInt64} {buffer : UInt64} :
    Outlasts ttl buffer ↔ ttl.all (leastTtl ≤ ·) = true ∧ ttl.all (buffer < ·) = true := by
  cases ttl with
  | none => simp [Outlasts]
  | some t =>
    simp only [Outlasts, Option.some.injEq, forall_eq', Option.all_some, decide_eq_true_eq,
      UInt64.le_iff_toNat_le, UInt64.lt_iff_toNat_lt]
    rfl

theorem keeps_of_make {c : Choices} {p : RenewalPolicy} (h : make c = .ok p) : p.Keeps c := by
  obtain ⟨httl, hbuffer, henabled, hretries, hdelay⟩ := make_eq_ok h
  exact ⟨httl, hbuffer, henabled, hretries, hdelay⟩

/-- **A policy can be made exactly if its time to live is long enough.** -/
theorem exists_make_iff (c : Choices) : (∃ p, make c = .ok p) ↔ c.IsValid := by
  rw [Choices.IsValid, outlasts_iff, make]
  constructor
  · rintro ⟨p, h⟩
    split at h
    · split at h
      · exact ⟨‹_›, ‹_›⟩
      · cases h
    · cases h
  · rintro ⟨hleast, hbuffer⟩
    rw [dif_pos hleast]
    exact ⟨_, dif_pos hbuffer⟩

theorem isValid (p : RenewalPolicy) : p.IsValid := by
  intro t ht
  obtain ⟨hleast, hbuffer⟩ := p.ttl_valid t ht
  rw [UInt64.le_iff_toNat_le] at hleast
  rw [UInt64.lt_iff_toNat_lt] at hbuffer
  exact ⟨hleast, hbuffer⟩

/-- A policy has a time to live, that of another policy or the one that is filled in, and is that
other policy otherwise. -/
structure Fills (q p : RenewalPolicy) (ttl : UInt64) : Prop where
  ttl : q.ttl = some (p.ttl.getD ttl)
  buffer : q.buffer = p.buffer
  enabled : q.enabled = p.enabled
  maxRetries : q.maxRetries = p.maxRetries
  retryDelay : q.retryDelay = p.retryDelay

theorem fills_of_fillTtl {p q : RenewalPolicy} {ttl : UInt64} (h : p.fillTtl ttl = .ok q) :
    q.Fills p ttl := by
  cases hp : p.ttl with
  | some t =>
    obtain rfl := Except.ok.inj ((fillTtl_ttl hp).symm.trans h)
    exact ⟨by rw [hp]; rfl, rfl, rfl, rfl, rfl⟩
  | none =>
    simp only [fillTtl, hp] at h
    obtain ⟨httl, hbuffer, henabled, hretries, hdelay⟩ := keeps_of_make h
    exact ⟨by rw [hp]; exact httl, hbuffer, henabled, hretries, hdelay⟩

/-- **A time to live can be filled in exactly if the one there is then is long enough.** -/
theorem exists_fillTtl_iff {p : RenewalPolicy} {ttl : UInt64} :
    (∃ q, p.fillTtl ttl = .ok q) ↔ Outlasts (some (p.ttl.getD ttl)) p.buffer := by
  cases hp : p.ttl with
  | some t =>
    refine iff_of_true ⟨p, fillTtl_ttl hp⟩ ?_
    have hvalid := p.isValid
    rwa [IsValid, hp] at hvalid
  | none =>
    simp only [fillTtl, hp]
    exact exists_make_iff _

end RenewalPolicy

/-! ### The settings of the secret client -/

namespace VaultSettings

/-- The rules that the settings of the secret client keep. -/
structure IsValid (s : VaultSettings) : Prop where
  url : s.url.IsHttp
  method : s.method ≠ ""
  fallbackToken : s.method = "fallbackToken" → ∃ token, s.fallbackToken = some token ∧ token ≠ ""
  folder : ∀ f, s.folder = some f → ∃ c ∈ f.toList, c ≠ '/'

/-- The rules for what may be chosen. A folder without a name is left out. -/
structure Choices.IsValid (c : Choices) : Prop where
  url : Url.IsServer c.url
  method : c.method ≠ some ""
  fallbackToken : c.method.getD "fallbackToken" = "fallbackToken" →
    ∃ token, c.fallbackToken = some token ∧ token ≠ ""

/-- Settings have the values that were chosen, or the usual ones. -/
structure Keeps (s : VaultSettings) (c : Choices) : Prop where
  url : Url.parse? c.url = some s.url
  method : s.method = c.method.getD "fallbackToken"
  fallbackToken : s.fallbackToken = c.fallbackToken
  healthCheck : s.healthCheck = c.healthCheck.getD true
  healthPath : s.healthPath = c.healthPath.getD "/v1/sys/health"
  standbyOk : s.standbyOk = c.standbyOk.getD false
  secretPath : s.secretPath = c.secretPath.getD "/v1/secret"
  folder : s.folder = c.folder.filter namesFolder
  timeout : s.timeout = c.timeout.getD (.ofSecs 10)

theorem getD_ne_empty_iff {token : Option String} :
    token.getD "" ≠ "" ↔ ∃ text, token = some text ∧ text ≠ "" := by
  cases token <;> simp

theorem getD_method_ne_empty_iff {method : Option String} :
    method.getD fallbackMethod ≠ "" ↔ method ≠ some "" := by
  cases method with
  | none => simp [fallbackMethod]
  | some text => simp

theorem keeps_of_make {c : Choices} {s : VaultSettings} (h : make c = .ok s) : s.Keeps c := by
  rw [make] at h
  cases hurl : readUrl c.url with
  | error r =>
    rw [hurl] at h
    cases h
  | ok url =>
    simp only [hurl] at h
    split at h
    · cases h
    · split at h
      · cases h
      · obtain rfl := Except.ok.inj h
        exact ⟨readUrl_eq_ok_iff.mp hurl, rfl, rfl, rfl, rfl, rfl, rfl, rfl, rfl⟩

/-- **Settings can be made exactly if the rules are kept.** -/
theorem exists_make_iff (c : Choices) : (∃ s, make c = .ok s) ↔ c.IsValid := by
  constructor
  · rintro ⟨s, h⟩
    have hkeeps := keeps_of_make h
    refine ⟨Url.exists_parse?_iff.mp ⟨s.url, hkeeps.url⟩, ?_, fun hmethod => ?_⟩
    · exact getD_method_ne_empty_iff.mp (hkeeps.method ▸ s.method_ne)
    · rw [← getD_ne_empty_iff, ← hkeeps.fallbackToken]
      exact s.fallback_ne (hkeeps.method.trans hmethod)
  · rintro ⟨hserver, hmethod, hfallback⟩
    obtain ⟨url, hurl⟩ := exists_readUrl_iff.mpr hserver
    have hrefused : ¬(c.method.getD fallbackMethod = fallbackMethod ∧
        c.fallbackToken.getD "" = "") := by
      rintro ⟨hfallbackMethod, hempty⟩
      exact getD_ne_empty_iff.mpr (hfallback hfallbackMethod) hempty
    rw [make, hurl]
    simp only
    rw [dif_neg (getD_method_ne_empty_iff.mpr hmethod), dif_neg hrefused]
    exact ⟨_, rfl⟩

theorem isValid (s : VaultSettings) : s.IsValid where
  url := s.url.isHttp
  method := s.method_ne
  fallbackToken h := getD_ne_empty_iff.mp (s.fallback_ne h)
  folder f h := by
    have hnamed := s.folder_named f h
    rw [namesFolder, List.any_eq_true] at hnamed
    obtain ⟨c, hc, hne⟩ := hnamed
    exact ⟨c, hc, of_decide_eq_true hne⟩

end VaultSettings

/-! ### The settings of the strategies -/

namespace KubernetesSettings

/-- The rules that the settings of the Kubernetes strategy keep. -/
structure IsValid (s : KubernetesSettings) : Prop where
  url : s.url.IsHttp
  role : Text.isAllBlank s.role = false
  inlineToken : ∀ t, s.inlineToken = some t → Text.isAllBlank t = false
  renewal : s.renewal.IsValid

/-- The rules for what may be chosen. An inline token that is blank is left out. -/
structure Choices.IsValid (c : Choices) : Prop where
  url : Url.IsServer c.url
  role : Text.isAllBlank c.role = false

/-- Settings have the values that were chosen, or the usual ones. -/
structure Keeps (s : KubernetesSettings) (c : Choices) : Prop where
  url : Url.parse? c.url = some s.url
  role : s.role = c.role
  inlineToken : s.inlineToken = c.inlineToken.filter fun t => !Text.isAllBlank t
  tokenFile : s.tokenFile = c.tokenFile.getD usualTokenFile
  threshold : s.threshold = c.threshold.getD 30
  renewal : s.renewal = c.renewal.getD .usual

theorem keeps_of_make {c : Choices} {s : KubernetesSettings} (h : make c = .ok s) : s.Keeps c := by
  rw [make] at h
  cases hurl : readUrl c.url with
  | error r =>
    rw [hurl] at h
    cases h
  | ok url =>
    simp only [hurl] at h
    split at h
    · obtain rfl := Except.ok.inj h
      exact ⟨readUrl_eq_ok_iff.mp hurl, rfl, rfl, rfl, rfl, rfl⟩
    · cases h

/-- **Settings can be made exactly if the rules are kept.** -/
theorem exists_make_iff (c : Choices) : (∃ s, make c = .ok s) ↔ c.IsValid := by
  constructor
  · rintro ⟨s, h⟩
    have hkeeps := keeps_of_make h
    exact ⟨Url.exists_parse?_iff.mp ⟨s.url, hkeeps.url⟩, hkeeps.role ▸ s.role_named⟩
  · rintro ⟨hserver, hrole⟩
    obtain ⟨url, hurl⟩ := exists_readUrl_iff.mpr hserver
    rw [make, hurl]
    exact ⟨_, dif_pos hrole⟩

theorem isValid (s : KubernetesSettings) : s.IsValid :=
  ⟨s.url.isHttp, s.role_named, s.inline_named, s.renewal.isValid⟩

end KubernetesSettings

namespace TokenSettings

/-- The rules that the settings of the token strategy keep. -/
structure IsValid (s : TokenSettings) : Prop where
  url : s.url.IsHttp
  token : Text.isAllBlank s.token = false
  renewal : ∃ t, s.renewal.ttl = some t ∧ 5 ≤ t.toNat ∧ s.renewal.buffer.toNat < t.toNat

/-- The rules for what may be chosen. The policy is looked at with the time to live filled in. -/
structure Choices.IsValid (c : Choices) : Prop where
  url : Url.IsServer c.url
  token : Text.isAllBlank c.token = false
  renewal : RenewalPolicy.Outlasts (some ((c.renewal.getD .usual).ttl.getD 300))
    (c.renewal.getD .usual).buffer

/-- Settings have the values that were chosen, or the usual ones. -/
structure Keeps (s : TokenSettings) (c : Choices) : Prop where
  url : Url.parse? c.url = some s.url
  token : s.token = c.token
  renewal : s.renewal.Fills (c.renewal.getD .usual) 300

theorem keeps_of_make {c : Choices} {s : TokenSettings} (h : make c = .ok s) : s.Keeps c := by
  obtain ⟨hurl, htoken, hrenewal⟩ := make_eq_ok h
  exact ⟨readUrl_eq_ok_iff.mp hurl, htoken, RenewalPolicy.fills_of_fillTtl hrenewal⟩

/-- **Settings can be made exactly if the rules are kept.** -/
theorem exists_make_iff (c : Choices) : (∃ s, make c = .ok s) ↔ c.IsValid := by
  constructor
  · rintro ⟨s, h⟩
    obtain ⟨hurl, htoken, hrenewal⟩ := make_eq_ok h
    exact ⟨exists_readUrl_iff.mp ⟨s.url, hurl⟩, htoken ▸ s.token_named,
      RenewalPolicy.exists_fillTtl_iff.mp ⟨s.renewal, hrenewal⟩⟩
  · rintro ⟨hserver, htoken, hrenewal⟩
    obtain ⟨url, hurl⟩ := exists_readUrl_iff.mpr hserver
    obtain ⟨renewal, hrenewal⟩ := RenewalPolicy.exists_fillTtl_iff.mpr hrenewal
    rw [make, hurl]
    simp only
    rw [dif_pos htoken]
    split
    · rename_i r hr
      cases hrenewal.symm.trans hr
    · exact ⟨_, rfl⟩

theorem isValid (s : TokenSettings) : s.IsValid := by
  obtain ⟨t, ht⟩ := Option.isSome_iff_exists.mp s.ttl_some
  exact ⟨s.url.isHttp, s.token_named, t, ht, s.renewal.isValid t ht⟩

end TokenSettings

/-! ### Loaded settings -/

namespace Properties

variable {values : Properties} {p : Property}

/-- What a property is read as: nothing if it says nothing, and else what its text denotes in its
form. -/
def Denotes {α : Type} (values : Properties) (form : String → Option α) (p : Property) :
    Option α → Prop
  | none => ∀ text, ¬values.Says p text
  | some a => ∃ text, values.Says p text ∧ form text = some a

/-- What a property says can be read in its form, if it says anything. -/
def IsReadable {α : Type} (values : Properties) (form : String → Option α) (p : Property) : Prop :=
  ∀ text, values.Says p text → ∃ a, form text = some a

/-- The URL is there and is that of a server. -/
def NamesServer (values : Properties) : Prop :=
  ∃ url, values.Says .url url ∧ Url.IsServer url

theorem required_eq_ok_iff {text : String} :
    values.required p = .ok text ↔ values.Says p text := by
  rw [required, ← text?_eq_some_iff]
  cases values.text? p <;> simp

theorem read_eq_ok_iff {α : Type} {form : String → Option α} {o : Option α} :
    values.read form p = .ok o ↔ values.Denotes form p o := by
  cases o <;> simp only [Denotes, ← text?_eq_some_iff, read]
  all_goals
    cases values.text? p with
    | none => simp
    | some text => cases hform : form text <;> simp [hform]

theorem exists_read_iff {α : Type} {form : String → Option α} :
    (∃ o, values.read form p = .ok o) ↔ values.IsReadable form p := by
  simp only [IsReadable, ← text?_eq_some_iff, read]
  cases values.text? p with
  | none => simp
  | some text =>
    simp only [Option.some.injEq, forall_eq']
    cases form text <;> simp

/-- **The settings of the secret client are loaded exactly if** the URL is that of a server, what is
said of truth values and of the time can be read, and the fallback strategy has a token if no other
one is named. -/
theorem exists_vault_iff :
    (∃ s, values.vault = .ok s) ↔
      values.NamesServer ∧ values.IsReadable Text.readBool? .healthCheck ∧
        values.IsReadable Text.readBool? .standbyOk ∧
        values.IsReadable Text.readUInt64? .timeout ∧
        ((∀ method, values.Says .method method → method = "fallbackToken") →
          ∃ token, values.Says .fallbackToken token) := by
  have honly : (∀ method, values.Says .method method → method = "fallbackToken") ↔
      (values.text? .method).getD "fallbackToken" = "fallbackToken" := by
    simp only [← text?_eq_some_iff]
    cases values.text? .method <;> simp
  rw [honly]
  simp only [vault, bind_eq_ok_iff]
  constructor
  · rintro ⟨s, url, hurl, check, hcheck, standby, hstandby, timeout, htimeout, hmake⟩
    have hvalid := (VaultSettings.exists_make_iff _).mp ⟨s, hmake⟩
    refine ⟨⟨url, required_eq_ok_iff.mp hurl, hvalid.url⟩, exists_read_iff.mp ⟨check, hcheck⟩,
      exists_read_iff.mp ⟨standby, hstandby⟩, exists_read_iff.mp ⟨timeout, htimeout⟩, ?_⟩
    intro hmethod
    obtain ⟨token, htoken, -⟩ := hvalid.fallbackToken hmethod
    exact ⟨token, text?_eq_some_iff.mp htoken⟩
  · rintro ⟨⟨url, hurl, hserver⟩, hcheck, hstandby, htimeout, hfallback⟩
    obtain ⟨check, hcheck⟩ := exists_read_iff.mpr hcheck
    obtain ⟨standby, hstandby⟩ := exists_read_iff.mpr hstandby
    obtain ⟨timeout, htimeout⟩ := exists_read_iff.mpr htimeout
    have hvalid : (⟨url, values.text? .method, values.text? .fallbackToken, check,
        values.text? .healthPath, standby, values.text? .secretPath, values.text? .folder,
        timeout.map .ofSecs⟩ : VaultSettings.Choices).IsValid := by
      refine ⟨hserver, fun hempty => text?_ne_empty hempty rfl, fun hmethod => ?_⟩
      obtain ⟨token, htoken⟩ := hfallback hmethod
      have htext := text?_eq_some_iff.mpr htoken
      exact ⟨token, htext, text?_ne_empty htext⟩
    obtain ⟨s, hmake⟩ := (VaultSettings.exists_make_iff _).mpr hvalid
    exact ⟨s, url, required_eq_ok_iff.mpr hurl, check, hcheck, standby, hstandby, timeout, htimeout,
      hmake⟩

/-- **The settings of the Kubernetes strategy are loaded exactly if** the role is there, the URL is
that of a server, and what is said of numbers and truth values can be read. -/
theorem exists_kubernetes_iff :
    (∃ s, values.kubernetes = .ok (some s)) ↔
      (∃ role, values.Says .role role) ∧ values.NamesServer ∧
        values.IsReadable Text.readBool? .kubernetesRenewal ∧
        values.IsReadable Text.readUInt64? .kubernetesBuffer ∧
        values.IsReadable Text.readUInt32? .maxRetries ∧
        values.IsReadable Text.readUInt64? .threshold := by
  rw [kubernetes]
  simp only [← text?_eq_some_iff]
  cases hrole : values.text? .role with
  | none => simp
  | some role =>
    have hnamed : Text.isAllBlank role = false := (text?_eq_some_iff.mp hrole).isAllBlank
    simp only [bind_eq_ok_iff, Option.some.injEq, exists_eq', true_and]
    constructor
    · rintro ⟨s, enabled, henabled, buffer, hbuffer, retries, hretries, renewal, -, url, hurl,
        threshold, hthreshold, made, hmake, -⟩
      have hvalid := (KubernetesSettings.exists_make_iff _).mp ⟨made, hmake⟩
      exact ⟨⟨url, required_eq_ok_iff.mp hurl, hvalid.url⟩, exists_read_iff.mp ⟨enabled, henabled⟩,
        exists_read_iff.mp ⟨buffer, hbuffer⟩, exists_read_iff.mp ⟨retries, hretries⟩,
        exists_read_iff.mp ⟨threshold, hthreshold⟩⟩
    · rintro ⟨⟨url, hurl, hserver⟩, henabled, hbuffer, hretries, hthreshold⟩
      obtain ⟨enabled, henabled⟩ := exists_read_iff.mpr henabled
      obtain ⟨buffer, hbuffer⟩ := exists_read_iff.mpr hbuffer
      obtain ⟨retries, hretries⟩ := exists_read_iff.mpr hretries
      obtain ⟨threshold, hthreshold⟩ := exists_read_iff.mpr hthreshold
      -- without a time to live there is nothing to refuse
      obtain ⟨renewal, hrenewal⟩ :=
        (RenewalPolicy.exists_make_iff ⟨none, buffer, enabled, retries, none⟩).mpr fun _ h => by
          cases h
      have hvalid : (⟨url, role, values.text? .inlineToken, values.text? .tokenFile, threshold,
          some renewal⟩ : KubernetesSettings.Choices).IsValid := ⟨hserver, hnamed⟩
      obtain ⟨s, hmake⟩ := (KubernetesSettings.exists_make_iff _).mpr hvalid
      exact ⟨s, enabled, henabled, buffer, hbuffer, retries, hretries, renewal, hrenewal, url,
        required_eq_ok_iff.mpr hurl, threshold, hthreshold, s, hmake, rfl⟩

/-- **The settings of the token strategy are loaded exactly if** the token is there, the URL is that
of a server, what is said of numbers and truth values can be read, and the time to live that is
said, or else the usual one, is long enough. -/
theorem exists_token_iff :
    (∃ s, values.token = .ok (some s)) ↔
      (∃ token, values.Says .token token) ∧ values.NamesServer ∧
        values.IsReadable Text.readBool? .tokenRenewal ∧
        values.IsReadable Text.readUInt32? .maxRetries ∧
        ∃ ttl buffer, values.Denotes Text.readUInt64? .tokenTtl ttl ∧
          values.Denotes Text.readUInt64? .tokenBuffer buffer ∧
          RenewalPolicy.Outlasts (some (ttl.getD 300)) (buffer.getD 30) := by
  rw [token]
  simp only [← text?_eq_some_iff, ← read_eq_ok_iff]
  cases htoken : values.text? .token with
  | none => simp
  | some token =>
    have hnamed : Text.isAllBlank token = false := (text?_eq_some_iff.mp htoken).isAllBlank
    simp only [bind_eq_ok_iff, Option.some.injEq, exists_eq', true_and]
    constructor
    · rintro ⟨s, enabled, henabled, ttl, httl, buffer, hbuffer, retries, hretries, renewal,
        hrenewal, url, hurl, made, hmake, -⟩
      have hvalid := (TokenSettings.exists_make_iff _).mp ⟨made, hmake⟩
      have hkeeps := RenewalPolicy.keeps_of_make hrenewal
      have houtlasts := hvalid.renewal
      simp only [Option.getD_some, hkeeps.ttl, hkeeps.buffer] at houtlasts
      exact ⟨⟨url, required_eq_ok_iff.mp hurl, hvalid.url⟩, exists_read_iff.mp ⟨enabled, henabled⟩,
        exists_read_iff.mp ⟨retries, hretries⟩, ttl, buffer, httl, hbuffer, houtlasts⟩
    · rintro ⟨⟨url, hurl, hserver⟩, henabled, hretries, ttl, buffer, httl, hbuffer, houtlasts⟩
      obtain ⟨enabled, henabled⟩ := exists_read_iff.mpr henabled
      obtain ⟨retries, hretries⟩ := exists_read_iff.mpr hretries
      have hasked : RenewalPolicy.Outlasts ttl (buffer.getD 30) := by
        rintro t rfl
        exact houtlasts t rfl
      obtain ⟨renewal, hrenewal⟩ :=
        (RenewalPolicy.exists_make_iff ⟨ttl, buffer, enabled, retries, none⟩).mpr hasked
      have hkeeps := RenewalPolicy.keeps_of_make hrenewal
      have hvalid : (⟨url, token, some renewal⟩ : TokenSettings.Choices).IsValid := by
        refine ⟨hserver, hnamed, ?_⟩
        simp only [Option.getD_some, hkeeps.ttl, hkeeps.buffer]
        exact houtlasts
      obtain ⟨s, hmake⟩ := (TokenSettings.exists_make_iff _).mpr hvalid
      exact ⟨s, enabled, henabled, ttl, httl, buffer, hbuffer, retries, hretries, renewal, hrenewal,
        url, required_eq_ok_iff.mpr hurl, s, hmake, rfl⟩

end Properties

/-- **Every setting that exists is valid, and what is valid can be made.** However policies and
settings were obtained, they keep their rules. A policy, and settings of each kind, can be made of
choices exactly if these keep the rules for what may be chosen, and what is made has the values that
were chosen: of the settings of the token strategy the policy is the one that was chosen with the
time to live filled in, and blank tokens and nameless folders are left out. Loaded settings are made
in the same way, so each part can be loaded exactly if what its properties say can be read and keeps
the rules. -/
theorem settings_valid :
    ((∀ p : RenewalPolicy, p.IsValid) ∧ (∀ s : VaultSettings, s.IsValid) ∧
      (∀ s : KubernetesSettings, s.IsValid) ∧ ∀ s : TokenSettings, s.IsValid) ∧
    ((∀ c, (∃ p, RenewalPolicy.make c = .ok p) ↔ c.IsValid) ∧
      (∀ c, (∃ s, VaultSettings.make c = .ok s) ↔ c.IsValid) ∧
      (∀ c, (∃ s, KubernetesSettings.make c = .ok s) ↔ c.IsValid) ∧
      ∀ c, (∃ s, TokenSettings.make c = .ok s) ↔ c.IsValid) ∧
    ((∀ c p, RenewalPolicy.make c = .ok p → p.Keeps c) ∧
      (∀ c s, VaultSettings.make c = .ok s → s.Keeps c) ∧
      (∀ c s, KubernetesSettings.make c = .ok s → s.Keeps c) ∧
      ∀ c s, TokenSettings.make c = .ok s → s.Keeps c) ∧
    ∀ values : Properties,
      ((∃ s, values.vault = .ok s) ↔
        values.NamesServer ∧ values.IsReadable Text.readBool? .healthCheck ∧
          values.IsReadable Text.readBool? .standbyOk ∧
          values.IsReadable Text.readUInt64? .timeout ∧
          ((∀ method, values.Says .method method → method = "fallbackToken") →
            ∃ token, values.Says .fallbackToken token)) ∧
      ((∃ s, values.kubernetes = .ok (some s)) ↔
        (∃ role, values.Says .role role) ∧ values.NamesServer ∧
          values.IsReadable Text.readBool? .kubernetesRenewal ∧
          values.IsReadable Text.readUInt64? .kubernetesBuffer ∧
          values.IsReadable Text.readUInt32? .maxRetries ∧
          values.IsReadable Text.readUInt64? .threshold) ∧
      ((∃ s, values.token = .ok (some s)) ↔
        (∃ token, values.Says .token token) ∧ values.NamesServer ∧
          values.IsReadable Text.readBool? .tokenRenewal ∧
          values.IsReadable Text.readUInt32? .maxRetries ∧
          ∃ ttl buffer, values.Denotes Text.readUInt64? .tokenTtl ttl ∧
            values.Denotes Text.readUInt64? .tokenBuffer buffer ∧
            RenewalPolicy.Outlasts (some (ttl.getD 300)) (buffer.getD 30)) := by
  refine ⟨⟨RenewalPolicy.isValid, VaultSettings.isValid, KubernetesSettings.isValid,
    TokenSettings.isValid⟩, ⟨RenewalPolicy.exists_make_iff, VaultSettings.exists_make_iff,
    KubernetesSettings.exists_make_iff, TokenSettings.exists_make_iff⟩, ⟨?_, ?_, ?_, ?_⟩, ?_⟩
  · exact fun c p => RenewalPolicy.keeps_of_make
  · exact fun c s => VaultSettings.keeps_of_make
  · exact fun c s => KubernetesSettings.keeps_of_make
  · exact fun c s => TokenSettings.keeps_of_make
  · exact fun values => ⟨Properties.exists_vault_iff, Properties.exists_kubernetes_iff,
      Properties.exists_token_iff⟩

/-- The token strategy with a buffer of so many seconds, and no time to live asked for. -/
def buffered (buffer : UInt64) : TokenSettings.Choices :=
  ⟨"http://vault:8200", "s.token",
    some ⟨none, buffer, true, 0, RenewalPolicy.usualRetryDelay, fun _ h => by cases h⟩⟩

/-- The time to live that is filled in outlasts a buffer of 299 seconds, and none of 300. -/
theorem settings_valid_buffered :
    (∃ s, TokenSettings.make (buffered 299) = .ok s ∧ s.renewal.ttl = some 300) ∧
      ¬∃ s, TokenSettings.make (buffered 300) = .ok s := by
  obtain ⟨-, ⟨-, -, -, hmake⟩, ⟨-, -, -, hkeeps⟩, -⟩ := settings_valid
  have hserver : Url.IsServer "http://vault:8200" :=
    Url.exists_parse?_iff.mp (Option.isSome_iff_exists.mp (by decide +kernel))
  constructor
  · have hvalid : (buffered 299).IsValid := by
      refine ⟨hserver, by decide, ?_⟩
      rintro _ ⟨⟩
      decide
    obtain ⟨s, hs⟩ := (hmake (buffered 299)).mpr hvalid
    exact ⟨s, hs, (hkeeps _ s hs).renewal.ttl⟩
  · intro hs
    have hoverlong := ((hmake (buffered 300)).mp hs).renewal 300 rfl
    exact absurd hoverlong.2 (by decide)

end VaultTokens
