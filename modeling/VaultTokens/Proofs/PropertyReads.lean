import VaultTokens.Settings.Properties
import VaultTokens.Proofs.StoredTexts

/-!
# What properties are read

Settings are loaded from a map of any names to any text. What is loaded depends on twenty names
only, and on each of them only by the text that is left without the blanks around it: two maps that
agree there (`SameOn`) give the same settings, or are refused for the same reason. Each part of the
settings depends on the names of its own list. Which parts there are is decided by two names, and a
setup is refused for the reason of its first part that is refused.

## Main results

* `text?_eq_some_iff` — what a property says, without how it is read
* `vault_eq_of_sameOn`, `kubernetes_eq_of_sameOn`, `token_eq_of_sameOn` — what a part depends on
* `setup_eq_ok_iff`, `setup_eq_error_iff` — a setup and its parts
* `reads_known_properties` — all of this together
-/

namespace VaultTokens

namespace Property

/-- The properties of the secret client. -/
def ofVault : List Property :=
  [.url, .method, .fallbackToken, .healthCheck, .healthPath, .standbyOk, .secretPath, .folder,
    .timeout]

/-- The properties of the Kubernetes strategy: the URL, its own ones and the retries. -/
def ofKubernetes : List Property :=
  [.url, .role, .inlineToken, .tokenFile, .threshold, .kubernetesRenewal, .kubernetesBuffer,
    .maxRetries]

/-- The properties of the token strategy: the URL, its own ones and the retries. -/
def ofToken : List Property :=
  [.url, .token, .tokenRenewal, .tokenTtl, .tokenBuffer, .maxRetries]

/-- No two properties have one name. -/
theorem key_injective {p q : Property} (h : p.key = q.key) : p = q := by
  have hall : ∀ p ∈ all, ∀ q ∈ all, p.key = q.key → p = q := by decide +kernel
  exact hall p (mem_all p) q (mem_all q) h

end Property

namespace Properties

variable {values v w : Properties} {p : Property} {text : String}

/-- What a property says: some text that is there, without the blanks around it, unless nothing is
left. -/
def Says (values : Properties) (p : Property) (text : String) : Prop :=
  ∃ raw, values p.key = some raw ∧ Text.Trims raw.toList text.toList ∧ text ≠ ""

/-- Both maps say the same for some properties. -/
def SameOn (ps : List Property) (v w : Properties) : Prop :=
  ∀ p ∈ ps, ∀ text, v.Says p text ↔ w.Says p text

/-- What is left of a text and is not empty is not blank. -/
theorem isAllBlank_of_trims {raw : List Char} (h : Text.Trims raw text.toList) (hne : text ≠ "") :
    Text.isAllBlank text = false := by
  rw [Text.isAllBlank]
  cases htext : text.toList with
  | nil => exact absurd (String.toList_inj.mp (htext.trans String.toList_empty.symm)) hne
  | cons c rest =>
    rw [List.all_cons, h.first c (by rw [htext]; rfl), Bool.false_and]

theorem Says.isAllBlank (h : values.Says p text) : Text.isAllBlank text = false := by
  obtain ⟨raw, -, htrims, hne⟩ := h
  exact isAllBlank_of_trims htrims hne

/-- **A property is read as what it says.** -/
theorem text?_eq_some_iff : values.text? p = some text ↔ values.Says p text := by
  rw [text?, Option.filter_eq_some_iff, Option.map_eq_some_iff]
  constructor
  · rintro ⟨⟨raw, hraw, rfl⟩, hne⟩
    refine ⟨raw, hraw, ?_, of_decide_eq_true hne⟩
    rw [Text.trim, String.toList_ofList]
    exact Text.trims_trimChars raw.toList
  · rintro ⟨raw, hraw, htrims, hne⟩
    refine ⟨⟨raw, hraw, ?_⟩, decide_eq_true hne⟩
    have hnamed : raw.toList.all Text.isBlank = false :=
      htrims.all_isBlank.trans (isAllBlank_of_trims htrims hne)
    rw [Text.trim, ← htrims.eq_trimChars hnamed, String.ofList_toList]

theorem text?_eq_none_iff : values.text? p = none ↔ ∀ text, ¬values.Says p text := by
  simp only [Option.eq_none_iff_forall_ne_some, ne_eq, text?_eq_some_iff]

/-! ### One property -/

variable {ps : List Property}

theorem sameOn_iff : SameOn ps v w ↔ ∀ p ∈ ps, v.text? p = w.text? p := by
  refine forall_congr' fun p => forall_congr' fun _ => ⟨fun h => ?_, fun h text => ?_⟩
  · refine Option.ext fun text => ?_
    rw [text?_eq_some_iff, text?_eq_some_iff]
    exact h text
  · rw [← text?_eq_some_iff, ← text?_eq_some_iff, h]

theorem SameOn.mono {qs : List Property} (h : SameOn ps v w) (hsub : ∀ p ∈ qs, p ∈ ps) :
    SameOn qs v w :=
  fun p hp => h p (hsub p hp)

theorem required_congr (h : v.text? p = w.text? p) : v.required p = w.required p := by
  rw [required, required, h]

theorem read_congr {α : Type} (form : String → Option α) (h : v.text? p = w.text? p) :
    v.read form p = w.read form p := by
  rw [read, read, h]

/-! ### The parts -/

/-- **The settings of the secret client depend on nine properties.** -/
theorem vault_eq_of_sameOn (h : SameOn Property.ofVault v w) : v.vault = w.vault := by
  rw [sameOn_iff] at h
  simp only [Property.ofVault, List.forall_mem_cons] at h
  obtain ⟨hurl, hmethod, hfallback, hcheck, hpath, hstandby, hsecret, hfolder, htimeout, -⟩ := h
  simp only [vault, required_congr hurl, read_congr _ hcheck, read_congr _ hstandby,
    read_congr _ htimeout, hmethod, hfallback, hpath, hsecret, hfolder]

/-- **The settings of the Kubernetes strategy depend on eight properties.** -/
theorem kubernetes_eq_of_sameOn (h : SameOn Property.ofKubernetes v w) :
    v.kubernetes = w.kubernetes := by
  rw [sameOn_iff] at h
  simp only [Property.ofKubernetes, List.forall_mem_cons] at h
  obtain ⟨hurl, hrole, hinline, hfile, hthreshold, hrenewal, hbuffer, hretries, -⟩ := h
  simp only [kubernetes, required_congr hurl, read_congr _ hthreshold, read_congr _ hrenewal,
    read_congr _ hbuffer, read_congr _ hretries, hrole, hinline, hfile]

/-- **The settings of the token strategy depend on six properties.** -/
theorem token_eq_of_sameOn (h : SameOn Property.ofToken v w) : v.token = w.token := by
  rw [sameOn_iff] at h
  simp only [Property.ofToken, List.forall_mem_cons] at h
  obtain ⟨hurl, htoken, hrenewal, httl, hbuffer, hretries, -⟩ := h
  simp only [token, required_congr hurl, read_congr _ hrenewal, read_congr _ httl,
    read_congr _ hbuffer, read_congr _ hretries, htoken]

/-- A computation in two steps succeeds exactly if both do. -/
theorem bind_eq_ok_iff {α β : Type} {x : Except Refusal α} {f : α → Except Refusal β} {b : β} :
    x >>= f = .ok b ↔ ∃ a, x = .ok a ∧ f a = .ok b := by
  cases x <;> simp [bind, Except.bind]

/-- **The Kubernetes strategy is not offered exactly if its role is not there**, whatever its other
properties say. -/
theorem kubernetes_eq_ok_none_iff :
    values.kubernetes = .ok none ↔ ∀ text, ¬values.Says .role text := by
  rw [← text?_eq_none_iff]
  refine ⟨fun h => ?_, kubernetes_of_role_none⟩
  rw [kubernetes] at h
  split at h
  · assumption
  · simp only [bind_eq_ok_iff] at h
    obtain ⟨_, -, _, -, _, -, _, -, _, -, _, -, _, -, hsome⟩ := h
    cases hsome

/-- **The token strategy is not offered exactly if its token is not there**, whatever its other
properties say. -/
theorem token_eq_ok_none_iff :
    values.token = .ok none ↔ ∀ text, ¬values.Says .token text := by
  rw [← text?_eq_none_iff]
  refine ⟨fun h => ?_, token_of_token_none⟩
  rw [token] at h
  split at h
  · assumption
  · simp only [bind_eq_ok_iff] at h
    obtain ⟨_, -, _, -, _, -, _, -, _, -, _, -, _, -, hsome⟩ := h
    cases hsome

/-! ### The setup -/

/-- **A setup has the settings of its parts.** -/
theorem setup_eq_ok_iff {s : Setup} :
    values.setup = .ok s ↔ values.vault = .ok s.vault ∧ values.kubernetes = .ok s.kubernetes ∧
      values.token = .ok s.token := by
  rw [setup]
  obtain ⟨vault, kubernetes, token⟩ := s
  cases values.vault <;> cases values.kubernetes <;> cases values.token <;>
    simp [bind, Except.bind, pure, Except.pure]

/-- **A setup is refused for the reason of its first part that is refused.** -/
theorem setup_eq_error_iff {r : Refusal} :
    values.setup = .error r ↔
      values.vault = .error r ∨
        ∃ vault, values.vault = .ok vault ∧
          (values.kubernetes = .error r ∨
            ∃ kubernetes, values.kubernetes = .ok kubernetes ∧ values.token = .error r) := by
  rw [setup]
  cases values.vault <;> cases values.kubernetes <;> cases values.token <;>
    simp [bind, Except.bind, pure, Except.pure]

/-- **The loader reads twenty properties, and of each only what it says.** Two maps that say the
same for all of them give the same setup and the same parts, or are refused for the same reason,
whatever else is in them. Each part depends on the properties of its own list. A strategy is not
offered exactly if its first property says nothing, whatever the others say, and that is no refusal.
A setup succeeds with its parts, and is refused for the reason of the first part that is refused:
the secret client, the Kubernetes strategy and the token strategy, in this order. -/
theorem reads_known_properties (v w : Properties) :
    (SameOn Property.all v w →
        v.setup = w.setup ∧ v.vault = w.vault ∧ v.kubernetes = w.kubernetes ∧ v.token = w.token) ∧
      (SameOn Property.ofVault v w → v.vault = w.vault) ∧
      (SameOn Property.ofKubernetes v w → v.kubernetes = w.kubernetes) ∧
      (SameOn Property.ofToken v w → v.token = w.token) ∧
      (v.kubernetes = .ok none ↔ ∀ text, ¬v.Says .role text) ∧
      (v.token = .ok none ↔ ∀ text, ¬v.Says .token text) ∧
      (∀ s, v.setup = .ok s ↔
        v.vault = .ok s.vault ∧ v.kubernetes = .ok s.kubernetes ∧ v.token = .ok s.token) ∧
      (∀ r, v.setup = .error r ↔
        v.vault = .error r ∨
          ∃ vault, v.vault = .ok vault ∧
            (v.kubernetes = .error r ∨
              ∃ kubernetes, v.kubernetes = .ok kubernetes ∧ v.token = .error r)) := by
  refine ⟨fun h => ?_, vault_eq_of_sameOn, kubernetes_eq_of_sameOn, token_eq_of_sameOn,
    kubernetes_eq_ok_none_iff, token_eq_ok_none_iff, fun s => setup_eq_ok_iff,
    fun r => setup_eq_error_iff⟩
  have hvault := vault_eq_of_sameOn (h.mono fun p _ => p.mem_all)
  have hkubernetes := kubernetes_eq_of_sameOn (h.mono fun p _ => p.mem_all)
  have htoken := token_eq_of_sameOn (h.mono fun p _ => p.mem_all)
  refine ⟨?_, hvault, hkubernetes, htoken⟩
  rw [setup, setup, hvault, hkubernetes, htoken]

/-- A server without strategies, and a number that nobody reads. -/
def plain : Properties :=
  fun key => [(Property.url.key, "http://vault:8200"), (Property.fallbackToken.key, "root"),
    (Property.threshold.key, "soon")].lookup key

/-- The same with blanks around the values, a role that is blank and a name that is not known. -/
def padded : Properties :=
  fun key => [(Property.url.key, " http://vault:8200\n"), (Property.fallbackToken.key, "root\t"),
    (Property.threshold.key, "soon"), (Property.role.key, "  "),
    ("edc.hostname", "vault")].lookup key

/-- Both give one setup, without a Kubernetes strategy. -/
theorem reads_known_properties_padded :
    SameOn Property.all plain padded ∧ plain.setup = padded.setup ∧
      (∀ text, ¬padded.Says .role text) ∧ padded.kubernetes = .ok none := by
  have hsame : SameOn Property.all plain padded := sameOn_iff.mpr (by decide +kernel)
  have hrole : ∀ text, ¬padded.Says .role text := text?_eq_none_iff.mp (by decide +kernel)
  exact ⟨hsame, ((reads_known_properties plain padded).1 hsame).1, hrole,
    (reads_known_properties padded padded).2.2.2.2.1.mpr hrole⟩

end Properties

end VaultTokens
