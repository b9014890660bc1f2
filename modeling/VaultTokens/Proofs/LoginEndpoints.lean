import VaultTokens.Login.Method
import VaultTokens.Proofs.PrintedUrls

/-!
# Where logins are sent to

Logins and renewals go to a URL that is put together as text: the URL of the server without its
closing slashes, a slash, and the path of what is asked for. The text is read again before anything
is sent. What comes out depends on how the URL of the server ends. If it ends with its path, the
path is extended, behind whatever path the server has. If there is a query or a fragment, the text
ends with that, and it is the query or the fragment that is extended: the path stays that of the
server, and nothing of what is asked for is in it.

## Main results

* `parse?_join` — what is read where a path is put behind the text of a URL
* `login_endpoints` — where logins and renewals are sent to
-/

namespace VaultTokens

namespace Url

/-! ### Text without closing slashes -/

/-- Text without the slashes at its end. -/
def trimSlashes (s : List Char) : List Char := (s.reverse.dropWhile (· = '/')).reverse

/-- A path without the empty segments at its end. -/
def trimEmpty (path : List (List Char)) : List (List Char) :=
  (path.reverse.dropWhile (·.isEmpty)).reverse

/-- No slash in front of another character is a closing one. -/
theorem trimSlashes_append_cons {c : Char} (hc : c ≠ '/') (front s : List Char) :
    trimSlashes (front ++ c :: s) = front ++ c :: trimSlashes s := by
  have hreverse : (front ++ c :: s).reverse = s.reverse ++ c :: front.reverse := by simp
  rw [trimSlashes, hreverse, List.dropWhile_append]
  split
  · rename_i hnil
    rw [List.isEmpty_iff] at hnil
    rw [List.dropWhile_cons_of_neg (by simpa using hc), trimSlashes, hnil]
    simp
  · simp [trimSlashes]

theorem mem_of_mem_trimSlashes {c : Char} {s : List Char} (h : c ∈ trimSlashes s) : c ∈ s :=
  List.mem_reverse.mp ((List.dropWhile_sublist _).subset (List.mem_reverse.mp h))

theorem mem_of_mem_trimEmpty {s : List Char} {path : List (List Char)} (h : s ∈ trimEmpty path) :
    s ∈ path :=
  List.mem_reverse.mp ((List.dropWhile_sublist _).subset (List.mem_reverse.mp h))

/-- The closing slashes of a path stand in front of its empty last segments. -/
theorem trimSlashes_render {path : List (List Char)}
    (h : ∀ s ∈ path, ∀ c ∈ s, Path.isSlash c = false) :
    trimSlashes (Path.render path) = Path.render (trimEmpty path) := by
  -- The last segment comes first: the induction is on the path from its end.
  have hreverse : ∀ segments : List (List Char),
      (∀ s ∈ segments, ∀ c ∈ s, Path.isSlash c = false) →
        trimSlashes (Path.render segments.reverse)
          = Path.render (segments.dropWhile (·.isEmpty)).reverse := by
    intro segments hsegments
    induction segments with
    | nil => rfl
    | cons s segments ih =>
      have hrender : Path.render (s :: segments).reverse
          = Path.render segments.reverse ++ '/' :: s := by simp [Path.render]
      rcases s.eq_nil_or_concat with rfl | ⟨front, c, rfl⟩
      · rw [hrender, List.dropWhile_cons_of_pos rfl,
          ← ih fun s hs => hsegments s (List.mem_cons_of_mem _ hs)]
        simp [trimSlashes]
      · have hc : c ≠ '/' := by
          rintro rfl
          cases hsegments _ List.mem_cons_self '/' (by simp)
        have htext : Path.render segments.reverse ++ '/' :: front.concat c
            = (Path.render segments.reverse ++ '/' :: front) ++ c :: [] := by simp
        rw [hrender, List.dropWhile_cons_of_neg (by simp), hrender, htext,
          trimSlashes_append_cons hc]
        rfl
  have hpath := hreverse path.reverse fun s hs => h s (List.mem_reverse.mp hs)
  rwa [List.reverse_reverse] at hpath

/-! ### Paths behind the text of URLs -/

/-- The URL with names behind the last of its parts. -/
def joined (u : Url) (names : List (List Char)) : Url :=
  match u.query, u.fragment with
  | none, none => { u with path := trimEmpty u.path ++ names }
  | some q, none => { u with query := some (trimSlashes q ++ Path.render names) }
  | _, some f => { u with fragment := some (trimSlashes f ++ Path.render names) }

variable {u : Url} {names : List (List Char)}

/-- The text of a URL in front of its path does not end with a slash. -/
theorem origin_eq_append (h : u.IsCanonical) : ∃ front c, c ≠ '/' ∧ u.origin = front ++ [c] := by
  have horigin : u.origin = u.scheme.name.toList ++ "://".toList ++ u.server := by
    rw [origin, server]
    simp only [List.append_assoc]
  rcases u.server.eq_nil_or_concat with hnil | ⟨front, c, hserver⟩
  · exact absurd hnil (server_ne_nil h)
  · rw [List.concat_eq_append] at hserver
    refine ⟨u.scheme.name.toList ++ "://".toList ++ front, c, ?_, ?_⟩
    · rintro rfl
      cases (endsServer_of_mem_server h (c := '/') (by simp [hserver])).1
    · rw [horigin, hserver, ← List.append_assoc]

/-- Names that can be put behind a path, a query and a fragment alike. -/
structure AreFitting (names : List (List Char)) : Prop where
  /-- There is a name. -/
  ne_nil : names ≠ []
  /-- Paths have segments like them. -/
  segments : ∀ s ∈ names, Path.IsSegment s
  /-- Queries have text like theirs. -/
  plain : Percent.IsPlain Percent.query (Path.render names)

instance : DecidablePred AreFitting := fun names =>
  decidable_of_iff (names ≠ [] ∧ (∀ s ∈ names, Path.IsSegment s) ∧
    ∀ c ∈ Path.render names, c.toNat < 0x80 ∧ Percent.query c = false)
    ⟨fun ⟨hne, hsegments, hplain⟩ => ⟨hne, hsegments, hplain⟩,
      fun ⟨hne, hsegments, hplain⟩ => ⟨hne, hsegments, hplain⟩⟩

theorem isCanonical_joined (h : u.IsCanonical) (hnames : AreFitting names) :
    (u.joined names).IsCanonical := by
  have hquery : ∀ q, Percent.IsPlain Percent.query q →
      Percent.IsPlain Percent.query (trimSlashes q ++ Path.render names) := by
    intro q hq c hc
    rcases List.mem_append.mp hc with hc | hc
    · exact hq c (mem_of_mem_trimSlashes hc)
    · exact hnames.plain c hc
  have hfragment : ∀ f, Percent.IsPlain Percent.fragment f →
      Percent.IsPlain Percent.fragment (trimSlashes f ++ Path.render names) := by
    intro f hf c hc
    rcases List.mem_append.mp hc with hc | hc
    · exact hf c (mem_of_mem_trimSlashes hc)
    · rcases mem_render_path hc with rfl | ⟨s, hs, hmem⟩
      · exact ⟨by decide, by decide⟩
      · obtain ⟨hascii, hpath⟩ := (hnames.segments s hs).isPlain_path c hmem
        simp only [Percent.path, Bool.or_eq_false_iff] at hpath
        exact ⟨hascii, hpath.1.1.1.1⟩
  unfold joined
  split
  · refine { h with
      path_ne_nil := by simp [hnames.ne_nil]
      path := fun s hs => ?_ }
    rcases List.mem_append.mp hs with hs | hs
    · exact h.path s (mem_of_mem_trimEmpty hs)
    · exact hnames.segments s hs
  · rename_i q hq _
    refine { h with query := ?_ }
    rintro _ ⟨⟩
    exact hquery q (h.query q hq)
  · rename_i f hf
    refine { h with fragment := ?_ }
    rintro _ ⟨⟩
    exact hfragment f (h.fragment f hf)

/-- The URL with names behind its last part is printed as the text with these names behind it. -/
theorem toString_joined (h : u.IsCanonical) {path : String}
    (hpath : Path.render names = '/' :: path.toList) :
    (u.joined names).toString = join u.toString path := by
  have htext : join u.toString path
      = String.ofList (trimSlashes u.toChars ++ Path.render names) := by
    rw [join, toString, String.toList_ofList, hpath]
    rfl
  rw [htext, toString]
  refine congrArg String.ofList ?_
  unfold joined
  split
  · rename_i hq hf
    obtain ⟨front, c, hc, horigin⟩ := origin_eq_append h
    have hpart : u.toChars = front ++ c :: Path.render u.path := by
      simp [toChars, hq, hf, horigin, behind]
    have hjoined : toChars { u with path := trimEmpty u.path ++ names }
        = u.origin ++ Path.render (trimEmpty u.path ++ names) := by
      simp [toChars, origin, hq, hf, behind]
    rw [hjoined, hpart, trimSlashes_append_cons hc,
      trimSlashes_render fun s hs => (h.path s hs).isSlash_eq_false, horigin, Path.render_append]
    simp
  · rename_i q hq hf
    have hpart : u.toChars = (u.origin ++ Path.render u.path) ++ '?' :: q := by
      simp [toChars, hq, hf, behind]
    rw [hpart, trimSlashes_append_cons (by decide)]
    simp [toChars, hf, behind, origin]
  · rename_i f hf
    have hpart : u.toChars
        = (u.origin ++ Path.render u.path ++ behind '?' u.query) ++ '#' :: f := by
      simp [toChars, hf, behind]
    rw [hpart, trimSlashes_append_cons (by decide)]
    simp [toChars, behind, origin]

/-- **What is read where a path is put behind the text of a URL.** -/
theorem parse?_join (h : u.IsCanonical) (hnames : AreFitting names) {path : String}
    (hpath : Path.render names = '/' :: path.toList) :
    parse? (join u.toString path) = some (u.joined names) := by
  rw [← toString_joined h hpath]
  exact parse?_toString (isCanonical_joined h hnames)

end Url

namespace Method

open Url

/-! ### The endpoints of the methods -/

/-- The server that exchanges are made with. -/
def server : Method → Url
  | .kubernetes server _ _ _ => server
  | .renewal server _ _ _ => server

/-- The path of what is asked of the server. -/
def service : Method → String
  | .kubernetes .. => "v1/auth/kubernetes/login"
  | .renewal .. => "v1/auth/token/renew-self"

/-- Where exchanges are sent to. -/
def endpoint (m : Method) : String := join m.server.toString m.service

/-- The names between the slashes of a path to a service. -/
def serviceNames (m : Method) : List (List Char) := m.service.toList.splitOn '/'

/-- A method belongs to settings that were accepted, for a server's URL as it is written there. -/
def IsConfigured (text : String) (m : Method) : Prop :=
  (∃ c s files, c.url = text ∧ KubernetesSettings.make c = .ok s ∧ ofKubernetes s files = .ok m) ∨
    ∃ c s, c.url = text ∧ TokenSettings.make c = .ok s ∧ ofToken s = m

variable {m : Method} {text : String} {files : FileTree} {r : Request}

/-- The server of accepted settings is that of the URL that is written there. -/
theorem IsConfigured.parse?_server (h : IsConfigured text m) : parse? text = some m.server := by
  rcases h with ⟨c, s, files, rfl, hmake, hmethod⟩ | ⟨c, s, rfl, hmake, rfl⟩
  · have hserver : m.server = s.url := by
      rw [ofKubernetes] at hmethod
      split at hmethod
      · cases hmethod
      · exact Except.ok.inj hmethod ▸ rfl
    rw [hserver]
    exact readUrl_eq_ok_iff.mp (KubernetesSettings.make_eq_ok hmake).1
  · exact readUrl_eq_ok_iff.mp (TokenSettings.make_eq_ok hmake).1

theorem url_of_post {w : Login.Words} {endpoint : String} {token : Option String} {body : String}
    (h : Login.post w endpoint token body = .ok r) : parse? endpoint = some r.url := by
  rw [Login.post, Locator.parse?] at h
  cases hparse : parse? endpoint with
  | none =>
    rw [hparse] at h
    cases hforeign : Foreign.parse? endpoint <;> simp [hforeign] at h
  | some url =>
    simp only [hparse, Login.prepare] at h
    split at h
    · rename_i sent hready
      obtain ⟨hsent, -, -⟩ := Http.ready_eq_ok_iff.mp hready
      rw [← Except.ok.inj h, ← hsent]
    · cases h

/-- Every request of an exchange is sent to the endpoint. -/
theorem url_of_prepare (h : m.prepare files = .ok r) : parse? m.endpoint = some r.url := by
  cases m with
  | kubernetes server role account threshold =>
    obtain ⟨jwt, -, hrequest⟩ := prepare_kubernetes_eq_ok.mp h
    exact url_of_post hrequest
  | renewal server token ttl threshold =>
    simp only [prepare] at h
    exact url_of_post h

theorem service_cases (m : Method) :
    m.service ∈ ["v1/auth/kubernetes/login", "v1/auth/token/renew-self"] := by
  cases m <;> simp [service]

theorem render_serviceNames (m : Method) :
    Path.render m.serviceNames = '/' :: m.service.toList := by
  have hall : ∀ path ∈ ["v1/auth/kubernetes/login", "v1/auth/token/renew-self"],
      Path.render (path.toList.splitOn '/') = '/' :: path.toList := by decide
  exact hall m.service m.service_cases

theorem areFitting_serviceNames (m : Method) : AreFitting m.serviceNames := by
  have hall : ∀ path ∈ ["v1/auth/kubernetes/login", "v1/auth/token/renew-self"],
      AreFitting (path.toList.splitOn '/') := by
    decide +kernel
  exact hall m.service m.service_cases

/-- **Where logins and renewals are sent to.** The endpoint is a URL of the same server. If the URL
of the server has neither query nor fragment, the path of the service stands behind its path, of
which no slash at the end is kept. Otherwise its path is unchanged, and the path of the service
stands at the end of the fragment or, if there is none, of the query. -/
theorem login_endpoints (hm : IsConfigured text m) :
    ∃ base url, parse? text = some base ∧ parse? m.endpoint = some url ∧
      (∀ files r, m.prepare files = .ok r → r.url = url) ∧
      url.scheme = base.scheme ∧ url.credentials = base.credentials ∧ url.host = base.host ∧
      url.port = base.port ∧
      (base.query = none → base.fragment = none →
        Path.render url.path = trimSlashes (Path.render base.path) ++ '/' :: m.service.toList ∧
          url.query = none ∧ url.fragment = none) ∧
      (∀ q, base.query = some q → base.fragment = none →
        url.path = base.path ∧ url.query = some (trimSlashes q ++ '/' :: m.service.toList) ∧
          url.fragment = none) ∧
      (∀ f, base.fragment = some f →
        url.path = base.path ∧ url.query = base.query ∧
          url.fragment = some (trimSlashes f ++ '/' :: m.service.toList)) := by
  have hcan := isCanonical_of_parse? hm.parse?_server
  have hrender := render_serviceNames m
  have hread : parse? m.endpoint = some (m.server.joined m.serviceNames) :=
    parse?_join hcan (areFitting_serviceNames m) hrender
  have hrequest : ∀ files r, m.prepare files = .ok r → r.url = m.server.joined m.serviceNames := by
    intro files r hr
    rw [url_of_prepare hr] at hread
    exact Option.some.inj hread
  have hslash : ∀ s ∈ m.server.path, ∀ c ∈ s, Path.isSlash c = false :=
    fun s hs => (hcan.path s hs).isSlash_eq_false
  refine ⟨m.server, m.server.joined m.serviceNames, hm.parse?_server, hread, hrequest, ?_⟩
  rw [← hrender]
  cases hq : m.server.query <;> cases hf : m.server.fragment <;>
    simp [joined, hq, hf, trimSlashes_render hslash]

/-- Settings of the token strategy with the usual policy. -/
def renewalSettings (url : Url) : TokenSettings where
  url := url
  token := "s.service"
  renewal := ⟨some usualTtl, RenewalPolicy.usualBuffer, true, 0, RenewalPolicy.usualRetryDelay,
    fun t ht => by cases ht; decide⟩
  token_named := by decide
  ttl_some := rfl

theorem isConfigured_renewalSettings {url : Url} (h : parse? text = some url) :
    IsConfigured text (ofToken (renewalSettings url)) := by
  refine .inr ⟨⟨text, "s.service", none⟩, renewalSettings url, rfl, ?_, rfl⟩
  simp only [TokenSettings.make, readUrl, h]
  rfl

/-- A server below a path that is written with slashes at its end. -/
def prefixedServer : Url :=
  ⟨.http, ⟨[], none⟩, .name "vault.test", some 8200, ["team".toList, [], []], none, none⟩

/-- Slashes at the end of a path are not doubled. -/
theorem login_endpoints_prefixed :
    parse? "http://vault.test:8200/team//" = some prefixedServer ∧
      ∃ url, parse? (ofToken (renewalSettings prefixedServer)).endpoint = some url ∧
        Path.render url.path = "/team/v1/auth/token/renew-self".toList := by
  have hparse : parse? "http://vault.test:8200/team//" = some prefixedServer := by decide +kernel
  obtain ⟨base, url, hbase, hurl, -, -, -, -, -, hpath, -, -⟩ :=
    login_endpoints (isConfigured_renewalSettings hparse)
  obtain rfl := Option.some.inj (hparse.symm.trans hbase)
  refine ⟨hparse, url, hurl, ?_⟩
  rw [(hpath rfl rfl).1]
  decide

/-- A server that is asked with a query. -/
def queriedServer : Url :=
  ⟨.http, ⟨[], none⟩, .name "vault.test", some 8200, [[]], some "region=eu".toList, none⟩

/-- Behind a query the path of the service is no path: the server is asked for its root. -/
theorem renewal_behind_query :
    IsConfigured "http://vault.test:8200/?region=eu" (ofToken (renewalSettings queriedServer)) ∧
      (ofToken (renewalSettings queriedServer)).endpoint
        = "http://vault.test:8200/?region=eu/v1/auth/token/renew-self" ∧
      ∀ url, parse? (ofToken (renewalSettings queriedServer)).endpoint = some url →
        Path.render url.path = ['/'] ∧
          Path.render url.path
            ≠ trimSlashes (Path.render queriedServer.path)
              ++ "/v1/auth/token/renew-self".toList := by
  have hparse : parse? "http://vault.test:8200/?region=eu" = some queriedServer := by decide +kernel
  have hread : parse? (ofToken (renewalSettings queriedServer)).endpoint
      = some { queriedServer with query := some "region=eu/v1/auth/token/renew-self".toList } := by
    decide +kernel
  refine ⟨isConfigured_renewalSettings hparse, by decide +kernel, fun url hurl => ?_⟩
  rw [hread] at hurl
  obtain rfl := Option.some.inj hurl
  decide

end Method

end VaultTokens
