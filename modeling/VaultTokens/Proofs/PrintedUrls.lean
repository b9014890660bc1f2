import VaultTokens.Proofs.PrintedHosts
import VaultTokens.Url.Parser

/-!
# URLs that were read are read again

Reading a URL settles every choice its text left open: dots are followed, characters that a part
does not admit are escaped, the usual port is left out. What is kept can be printed and read any
number of times. `Url.IsCanonical` describes the URLs that this is true of, part by part. Reading
yields them, and whatever puts a part in place of another one keeps to them by looking at that part
alone.

## Main results

* `isCanonical_of_parse?` — what is read is canonical
* `parse?_toString` — a canonical URL is read from its text
-/

namespace VaultTokens.Url

/-- Taking characters while they are of a kind takes just those in front of one that is not. -/
theorem takeWhile_dropWhile_append {p : Char → Bool} {front : List Char}
    (hfront : ∀ c ∈ front, p c = true) (rest : List Char)
    (hrest : ∀ c ∈ rest.head?, p c = false) :
    (front ++ rest).takeWhile p = front ∧ (front ++ rest).dropWhile p = rest := by
  rw [List.takeWhile_append_of_pos hfront, List.dropWhile_append_of_pos hfront]
  cases rest with
  | nil => simp
  | cons c rest => simp [hrest c rfl]

/-! ### Encoded text -/

namespace Percent

variable {set target : Char → Bool} {s : List Char}

/-- The characters that escapes are made of. -/
def escapes : List Char := "%0123456789ABCDEF".toList

theorem hexDigit_mem_escapes {n : Nat} (h : n < 16) : hexDigit n ∈ escapes := by
  have hall : ∀ m : Fin 16, hexDigit m.val ∈ escapes := by decide
  exact hall ⟨n, h⟩

theorem mem_escapes_of_mem_encodeByte {b : UInt8} {c : Char} (h : c ∈ encodeByte b) :
    c ∈ escapes := by
  have hb := b.toNat_lt
  simp only [encodeByte, List.mem_cons, List.not_mem_nil, or_false] at h
  rcases h with rfl | rfl | rfl
  · decide
  · exact hexDigit_mem_escapes (by omega)
  · exact hexDigit_mem_escapes (by omega)

/-- A character of encoded text belongs to an escape or stood in the text. -/
theorem mem_encode {c : Char} (h : c ∈ encode set s) :
    c ∈ escapes ∨ c ∈ s ∧ c.toNat < 0x80 ∧ set c = false := by
  obtain ⟨x, hx, hc⟩ := List.mem_flatMap.mp h
  rw [encodeChar] at hc
  split at hc
  · obtain ⟨b, -, hb⟩ := List.mem_flatMap.mp hc
    exact .inl (mem_escapes_of_mem_encodeByte hb)
  · rename_i hkept
    obtain rfl := List.mem_singleton.mp hc
    simp only [Bool.or_eq_true, decide_eq_true_eq, not_or, Nat.not_le, Bool.not_eq_true] at hkept
    exact .inr ⟨hx, hkept⟩

/-- Encoded text is plain for every set that leaves escapes alone and whatever was kept. -/
theorem isPlain_encode (hescapes : ∀ c ∈ escapes, target c = false)
    (hkept : ∀ c ∈ s, set c = false → target c = false) : IsPlain target (encode set s) := by
  intro c hc
  rcases mem_encode hc with hescape | ⟨hmem, hascii, hset⟩
  · have hlt : ∀ e ∈ escapes, e.toNat < 0x80 := by decide
    exact ⟨hlt c hescape, hescapes c hescape⟩
  · exact ⟨hascii, hkept c hmem hset⟩

theorem encode_cons_ne_nil {c : Char} : encode set (c :: s) ≠ [] := by
  have hchar : encodeChar set c ≠ [] := by
    obtain ⟨b, more, hbytes, -⟩ := Text.Utf8.step_encodeChar c []
    rw [encodeChar, hbytes]
    split <;> simp [encodeByte]
  exact fun h => hchar (List.append_eq_nil_iff.mp h).1

end Percent

/-! ### Paths -/

namespace Path

variable {ends : Char → Bool} {above path : List (List Char)} {s : List Char}

/-- What no segment of a path holds. -/
def endsSegment (c : Char) : Bool := Percent.path c || isSlash c

/-- A segment in the form in which it is printed. -/
structure IsSegment (s : List Char) : Prop where
  /-- Segments may hold its characters. -/
  plain : Percent.IsPlain endsSegment s
  /-- It does not name the directory itself. -/
  not_dot : isDot s = false
  /-- It does not name the directory above. -/
  not_dotDot : isDotDot s = false

instance : DecidablePred IsSegment := fun s =>
  decidable_of_iff
    ((∀ c ∈ s, c.toNat < 0x80 ∧ endsSegment c = false) ∧ isDot s = false ∧ isDotDot s = false)
    ⟨fun ⟨hplain, hdot, hdots⟩ => ⟨hplain, hdot, hdots⟩,
      fun ⟨hplain, hdot, hdots⟩ => ⟨hplain, hdot, hdots⟩⟩

theorem isSegment_nil : IsSegment [] := ⟨by simp [Percent.IsPlain], rfl, rfl⟩

theorem IsSegment.isPlain_path (h : IsSegment s) : Percent.IsPlain Percent.path s := fun c hc =>
  ⟨(h.plain c hc).1, (Bool.or_eq_false_iff.mp (h.plain c hc).2).1⟩

theorem IsSegment.isSlash_eq_false (h : IsSegment s) : ∀ c ∈ s, isSlash c = false := fun c hc =>
  (Bool.or_eq_false_iff.mp (h.plain c hc).2).2

theorem mem_of_mem_climb (h : s ∈ climb above) : s ∈ above := by
  rw [climb] at h
  split at h
  · cases h
  · split at h
    · exact h
    · exact (List.dropLast_sublist above).subset h

/-- A path that is written has segments as they are printed. -/
theorem isSegment_of_mem_written {segments : List (List Char)}
    (habove : ∀ s ∈ above, IsSegment s)
    (hsegments : ∀ s ∈ segments, Percent.IsPlain endsSegment s) :
    ∀ s ∈ written above segments, IsSegment s := by
  have henter : ∀ {above : List (List Char)} {s : List Char}, (∀ s ∈ above, IsSegment s) →
      Percent.IsPlain endsSegment s → ∀ t ∈ enter above s, IsSegment t := by
    intro above s habove hs t ht
    rw [enter] at ht
    split at ht
    · exact habove t (mem_of_mem_climb ht)
    · rename_i hdots
      split at ht
      · exact habove t ht
      · rename_i hdot
        rcases List.mem_append.mp ht with ht | ht
        · exact habove t ht
        · rw [List.mem_singleton.mp ht]
          exact ⟨hs, by simpa using hdot, by simpa using hdots⟩
  fun_induction written above segments with
  | case1 above => exact habove
  | case2 above last hdots =>
    intro t ht
    rcases List.mem_append.mp ht with ht | ht
    · exact henter habove (hsegments last List.mem_cons_self) t ht
    · rw [List.mem_singleton.mp ht]
      exact isSegment_nil
  | case3 above last hdots =>
    intro t ht
    rcases List.mem_append.mp ht with ht | ht
    · exact habove t ht
    · rw [List.mem_singleton.mp ht]
      simp only [Bool.or_eq_true, not_or, Bool.not_eq_true] at hdots
      exact ⟨hsegments last List.mem_cons_self, hdots.2, hdots.1⟩
  | case4 above s rest hrest ih =>
    exact ih (henter habove (hsegments s List.mem_cons_self))
      fun t ht => hsegments t (List.mem_cons_of_mem _ ht)

theorem written_ne_nil {segments : List (List Char)} (h : segments ≠ []) :
    written above segments ≠ [] := by
  fun_induction written above segments with
  | case1 => exact absurd rfl h
  | case2 => simp
  | case3 => simp
  | case4 above s rest hrest ih => exact ih hrest

/-- Segments as they are printed are written one behind the other. -/
theorem written_of_isSegment (h : ∀ s ∈ path, IsSegment s) :
    written above path = above ++ path := by
  fun_induction written above path with
  | case1 above => simp
  | case2 above last hdots =>
    have hlast := h last List.mem_cons_self
    simp [hlast.not_dot, hlast.not_dotDot] at hdots
  | case3 => rfl
  | case4 above s rest hrest ih =>
    have hs := h s List.mem_cons_self
    rw [ih fun t ht => h t (List.mem_cons_of_mem _ ht), enter, hs.not_dot, hs.not_dotDot]
    simp

theorem split_of_forall (h : ∀ c ∈ s, ends c = false) : split ends s = [s] := by
  induction s with
  | nil => rfl
  | cons c s ih =>
    rw [split, h c List.mem_cons_self, ih fun x hx => h x (List.mem_cons_of_mem _ hx)]
    rfl

/-- A character that ends segments ends the first one. -/
theorem split_append_cons (h : ∀ c ∈ s, ends c = false) {c : Char} (hc : ends c = true)
    (rest : List Char) : split ends (s ++ c :: rest) = s :: split ends rest := by
  induction s with
  | nil => rw [List.nil_append, split, if_pos hc]
  | cons d s ih =>
    rw [List.cons_append, split, h d List.mem_cons_self,
      ih fun x hx => h x (List.mem_cons_of_mem _ hx)]
    rfl

theorem split_ne_nil (text : List Char) : split ends text ≠ [] := by
  fun_induction split ends text <;> simp

/-- No character that ends segments is in one. -/
theorem ends_eq_false_of_mem_split {text : List Char} (h : s ∈ split ends text) :
    ∀ c ∈ s, ends c = false := by
  fun_induction split ends text generalizing s with
  | case1 =>
    rw [List.mem_singleton.mp h]
    simp
  | case2 c rest hends ih =>
    rcases List.mem_cons.mp h with rfl | h
    · simp
    · exact ih h
  | case3 c rest hends hnil ih => exact absurd hnil (split_ne_nil rest)
  | case4 c rest hends first more hsplit ih =>
    rw [hsplit] at ih
    rcases List.mem_cons.mp h with rfl | h
    · intro d hd
      rcases List.mem_cons.mp hd with rfl | hd
      · simpa using hends
      · exact ih List.mem_cons_self d hd
    · exact ih (List.mem_cons_of_mem _ h)

/-- The segments of a printed path are those of the path. -/
theorem split_render (h : ∀ s ∈ path, ∀ c ∈ s, isSlash c = false) (hne : path ≠ []) :
    split isSlash ((render path).drop 1) = path := by
  induction path with
  | nil => exact absurd rfl hne
  | cons s path ih =>
    have hs := h s List.mem_cons_self
    cases path with
    | nil =>
      have htext : (render [s]).drop 1 = s := by simp [render]
      rw [htext, split_of_forall hs]
    | cons t path =>
      have htext : (render (s :: t :: path)).drop 1
          = s ++ '/' :: (render (t :: path)).drop 1 := by simp [render]
      rw [htext, split_append_cons hs rfl,
        ih (fun x hx => h x (List.mem_cons_of_mem _ hx)) (by simp)]

/-- A path as it is printed is read as that path. -/
theorem ofChars_render (h : ∀ s ∈ path, IsSegment s) (hne : path ≠ []) :
    ofChars ((render path).drop 1) = path := by
  have hencode : path.map (Percent.encode Percent.path) = path := by
    calc path.map (Percent.encode Percent.path)
        = path.map id :=
          List.map_congr_left fun s hs => Percent.encode_of_isPlain (h s hs).isPlain_path
      _ = path := List.map_id path
  rw [ofChars, ofCharsBy, segments, split_render (fun s hs => (h s hs).isSlash_eq_false) hne,
    hencode, written_of_isSegment h, List.nil_append]

/-- A path that is read is as it is printed. -/
theorem isSegment_of_mem_ofChars (text : List Char) : ∀ s ∈ ofChars text, IsSegment s := by
  refine isSegment_of_mem_written (by simp) fun s hs => ?_
  obtain ⟨part, hpart, rfl⟩ := List.mem_map.mp hs
  refine Percent.isPlain_encode (by decide) fun c hc hset => ?_
  rw [endsSegment, hset, ends_eq_false_of_mem_split hpart c hc]
  rfl

theorem ofChars_ne_nil (text : List Char) : ofChars text ≠ [] :=
  written_ne_nil (by simpa [segments] using split_ne_nil text)

end Path

/-! ### Servers -/

namespace Credentials

variable {c : Credentials} {server : List Char}

/-- Credentials in the form in which they are printed. -/
structure IsCanonical (c : Credentials) : Prop where
  /-- The user name is encoded. -/
  user : Percent.IsPlain Percent.user c.user
  /-- The password is encoded, and not empty. -/
  password : ∀ p ∈ c.password, p ≠ [] ∧ Percent.IsPlain Percent.user p

theorem isPlain_encode_user (s : List Char) :
    Percent.IsPlain Percent.user (Percent.encode Percent.user s) :=
  Percent.isPlain_encode (by decide) fun _ _ h => h

theorem isCanonical_ofChars (s : List Char) : (ofChars s).IsCanonical := by
  unfold ofChars
  split
  · exact ⟨isPlain_encode_user _, by simp⟩
  · exact ⟨isPlain_encode_user _, by simp⟩
  · rename_i mark password hone hmark
    refine ⟨isPlain_encode_user _, ?_⟩
    rintro _ ⟨⟩
    cases password with
    | nil => exact absurd rfl hone
    | cons c password => exact ⟨Percent.encode_cons_ne_nil, isPlain_encode_user _⟩

theorem mem_render {x : Char} (h : x ∈ c.render) :
    x ∈ c.user ∨ (∃ p ∈ c.password, x ∈ p) ∨ x ∈ [':', '@'] := by
  obtain ⟨user, password⟩ := c
  cases password with
  | none =>
    cases user with
    | nil => cases h
    | cons d user =>
      have hmem : x ∈ (d :: user) ++ ['@'] := h
      rcases List.mem_append.mp hmem with huser | hat
      · exact .inl huser
      · exact .inr (.inr (by simp [List.mem_singleton.mp hat]))
  | some p =>
    have hmem : x ∈ user ++ ':' :: (p ++ ['@']) := by
      simpa [render] using h
    rw [List.mem_append, List.mem_cons, List.mem_append, List.mem_singleton] at hmem
    rcases hmem with huser | rfl | hp | rfl
    · exact .inl huser
    · exact .inr (.inr (by simp))
    · exact .inr (.inl ⟨p, rfl, hp⟩)
    · exact .inr (.inr (by simp))

/-- The text of credentials is read as them. -/
theorem ofChars_of_isPlain {user : List Char} (huser : Percent.IsPlain Percent.user user) :
    ofChars user = ⟨user, none⟩ ∧
      ∀ p, p ≠ [] → Percent.IsPlain Percent.user p →
        ofChars (user ++ ':' :: p) = ⟨user, some p⟩ := by
  have hcolon : ∀ c ∈ user, decide (c ≠ ':') = true := by
    intro c hc
    rw [decide_eq_true_eq]
    rintro rfl
    cases (huser ':' hc).2
  have hread : ∀ rest, (∀ c ∈ rest.head?, decide (c ≠ ':') = false) →
      (user ++ rest).takeWhile (· ≠ ':') = user ∧ (user ++ rest).dropWhile (· ≠ ':') = rest :=
    takeWhile_dropWhile_append hcolon
  refine ⟨?_, fun p hp hplain => ?_⟩
  · obtain ⟨htake, hdrop⟩ := hread [] (by simp)
    rw [List.append_nil] at htake hdrop
    rw [ofChars, htake, hdrop, Percent.encode_of_isPlain huser]
  · obtain ⟨htake, hdrop⟩ := hread (':' :: p) (by simp)
    obtain ⟨c, rest, rfl⟩ := List.exists_cons_of_ne_nil hp
    rw [ofChars, htake, hdrop, Percent.encode_of_isPlain huser]
    simp only
    rw [Percent.encode_of_isPlain hplain]

/-- Credentials are read from their text in front of a server. -/
theorem split_render (hc : c.IsCanonical) (hserver : '@' ∉ server) :
    ∃ written, splitCredentials (c.render ++ server) = (written, server) ∧
      ofChars (written.getD []) = c := by
  have hbehind : ∀ c ∈ server.reverse, decide (c ≠ '@') = true := by
    intro c hc
    rw [decide_eq_true_eq]
    rintro rfl
    exact hserver (List.mem_reverse.mp hc)
  have hread : ∀ rest : List Char, (∀ c ∈ rest.head?, decide (c ≠ '@') = false) →
      (server.reverse ++ rest).takeWhile (· ≠ '@') = server.reverse ∧
        (server.reverse ++ rest).dropWhile (· ≠ '@') = rest :=
    takeWhile_dropWhile_append hbehind
  have hat : ∀ body, splitCredentials (body ++ '@' :: server) = (some body, server) := by
    intro body
    obtain ⟨htake, hdrop⟩ := hread ('@' :: body.reverse) (by simp)
    have htext : (body ++ '@' :: server).reverse = server.reverse ++ '@' :: body.reverse := by simp
    rw [splitCredentials, htext, htake, hdrop]
    simp
  obtain ⟨user, password⟩ := c
  obtain ⟨huser, hpassword⟩ := hc
  obtain ⟨hwithout, hwith⟩ := ofChars_of_isPlain huser
  cases password with
  | some p =>
    obtain ⟨hp, hplain⟩ := hpassword p rfl
    refine ⟨some (user ++ ':' :: p), ?_, hwith p hp hplain⟩
    have htext : render ⟨user, some p⟩ ++ server = (user ++ ':' :: p) ++ '@' :: server := by
      simp [render]
    rw [htext, hat]
  | none =>
    cases user with
    | nil =>
      obtain ⟨htake, hdrop⟩ := hread [] (by simp)
      rw [List.append_nil] at htake hdrop
      refine ⟨none, ?_, hwithout⟩
      rw [render, List.nil_append, splitCredentials, hdrop]
    | cons c user =>
      refine ⟨some (c :: user), ?_, hwithout⟩
      have htext : render ⟨c :: user, none⟩ ++ server = (c :: user) ++ '@' :: server := by
        simp [render]
      rw [htext, hat]

end Credentials

/-- The part of a URL between the slashes and the path. -/
def server (u : Url) : List Char :=
  u.credentials.render ++ u.host.render.toList ++ renderPort u.port

/-- A URL in the form in which it is printed. -/
structure IsCanonical (u : Url) : Prop where
  /-- User name and password are encoded. -/
  credentials : u.credentials.IsCanonical
  /-- The host is one that was read. -/
  host : u.host.IsCanonical
  /-- The port is a number of sixteen bits, and not the usual one. -/
  port : ∀ p ∈ u.port, p ≤ 65535 ∧ p ≠ u.scheme.port
  /-- There is a path. -/
  path_ne_nil : u.path ≠ []
  /-- The path is encoded and has no dots to follow. -/
  path : ∀ s ∈ u.path, Path.IsSegment s
  /-- The query is encoded. -/
  query : ∀ q ∈ u.query, Percent.IsPlain Percent.query q
  /-- The fragment is encoded. -/
  fragment : ∀ f ∈ u.fragment, Percent.IsPlain Percent.fragment f

variable {u : Url} {text : String}

/-- A port that is read is a number of sixteen bits, and not the usual one. -/
theorem le_of_readPort {usual : Nat} {s : List Char} {port : Option Nat}
    (h : readPort (some usual) s = some port) : ∀ p ∈ port, p ≤ 65535 ∧ p ≠ usual := by
  rintro p rfl
  refine ⟨?_, fun hp => readPort_ne_usual h (by rw [hp])⟩
  unfold readPort at h
  split at h
  · simp at h
  · rename_i mark digits
    split at h
    · simp only at h
      split at h
      · cases h
      · rename_i hle
        split at h
        · simp at h
        · simp only [Option.some.injEq] at h
          omega
    · cases h

theorem readPort_render {usual : Nat} {port : Option Nat}
    (h : ∀ p ∈ port, p ≤ 65535 ∧ p ≠ usual) :
    readPort (some usual) (renderPort port) = some port := by
  cases port with
  | none => rfl
  | some p =>
    obtain ⟨hle, hne⟩ := h p rfl
    have hdigits : ((ToString.toString p).toList.all Char.isDigit) = true := by
      rw [Nat.toString_eq_ofList_toDigits, String.toList_ofList, List.all_eq_true]
      exact fun c hc => Nat.isDigit_of_mem_toDigits (by decide) (by decide) hc
    have hdecimal : Nat.ofDigitChars 10 (Nat.toDigits 10 p) 0 = p :=
      Nat.ofDigitChars_toDigits (by decide) (by decide)
    have hvalue : (ToString.toString p).toList.foldl (fun acc c => acc * 10 + (c.toNat - 48)) 0
        = p := by
      rw [Nat.toString_eq_ofList_toDigits, String.toList_ofList]
      rw [Nat.ofDigitChars_eq_foldl] at hdecimal
      simp only [Nat.mul_comm 10] at hdecimal
      exact hdecimal
    have hnonempty : (ToString.toString p).toList.isEmpty = false := by
      rw [Nat.toString_eq_ofList_toDigits, String.toList_ofList, List.isEmpty_eq_false_iff]
      exact Nat.toDigits_ne_nil
    rw [renderPort, readPort, if_pos hdigits]
    simp only [hvalue, hnonempty]
    rw [if_neg (by omega), if_neg (by simpa using hne)]

/-- What names may hold does not end the part that names the server. -/
theorem endsServer_of_isNameChar {c : Char} (h : Host.isNameChar c = true) :
    endsServer c = false ∧ 0x20 < c.toNat ∧ c ≠ '@' ∧ c ≠ ':' ∧ c ≠ '[' ∧ c ≠ ']' :=
  Host.of_ascii (P := fun c => Host.isNameChar c = true →
    endsServer c = false ∧ 0x20 < c.toNat ∧ c ≠ '@' ∧ c ≠ ':' ∧ c ≠ '[' ∧ c ≠ ']')
    (by decide +kernel) (Host.lt_of_isNameChar h) h

/-- What is printed of the host and the port does not end the part that names the server. -/
theorem endsServer_of_mem_host (h : u.IsCanonical) {c : Char}
    (hc : c ∈ u.host.render.toList ++ renderPort u.port) :
    endsServer c = false ∧ 0x20 < c.toNat ∧ c ≠ '@' := by
  have hname : Host.isNameChar c = true → endsServer c = false ∧ 0x20 < c.toNat ∧ c ≠ '@' :=
    fun hc => ⟨(endsServer_of_isNameChar hc).1, (endsServer_of_isNameChar hc).2.1,
      (endsServer_of_isNameChar hc).2.2.1⟩
  have hmark : c ∈ [':', '[', ']'] → endsServer c = false ∧ 0x20 < c.toNat ∧ c ≠ '@' := by
    have hall : ∀ c ∈ [':', '[', ']'], endsServer c = false ∧ 0x20 < c.toNat ∧ c ≠ '@' := by decide
    exact hall c
  rcases List.mem_append.mp hc with hc | hc
  · exact (Host.mem_render h.host hc).elim hname hmark
  · cases hport : u.port with
    | none => simp [hport, renderPort] at hc
    | some p =>
      rw [hport, renderPort] at hc
      rcases List.mem_cons.mp hc with rfl | hc
      · exact hmark List.mem_cons_self
      · rw [Nat.toString_eq_ofList_toDigits, String.toList_ofList] at hc
        exact hname (Host.isNameChar_of_isDigit
          (Nat.isDigit_of_mem_toDigits (by decide) (by decide) hc)).1

/-- What is printed of credentials does not end the part that names the server. -/
theorem endsServer_of_mem_credentials {credentials : Credentials} (h : credentials.IsCanonical)
    {c : Char} (hc : c ∈ credentials.render) : endsServer c = false ∧ 0x20 < c.toNat := by
  have hplain : ∀ {s : List Char}, Percent.IsPlain Percent.user s → c ∈ s →
      endsServer c = false ∧ 0x20 < c.toNat := fun hs hmem =>
    Host.of_ascii (P := fun c => Percent.user c = false → endsServer c = false ∧ 0x20 < c.toNat)
      (by decide +kernel) (hs c hmem).1 (hs c hmem).2
  have hmark : ∀ c ∈ [':', '@'], endsServer c = false ∧ 0x20 < c.toNat := by decide
  rcases Credentials.mem_render hc with huser | ⟨p, hp, hpassword⟩ | hc
  · exact hplain h.user huser
  · exact hplain (h.password p hp).2 hpassword
  · exact hmark c hc

theorem endsServer_of_mem_server (h : u.IsCanonical) {c : Char} (hc : c ∈ u.server) :
    endsServer c = false ∧ 0x20 < c.toNat := by
  rw [server, List.append_assoc, List.mem_append] at hc
  rcases hc with hc | hc
  · exact endsServer_of_mem_credentials h.credentials hc
  · exact ⟨(endsServer_of_mem_host h hc).1, (endsServer_of_mem_host h hc).2.1⟩

/-- There is a server, since there is a host. -/
theorem server_ne_nil (h : u.IsCanonical) : u.server ≠ [] := by
  intro hnil
  rw [server, List.append_eq_nil_iff, List.append_eq_nil_iff] at hnil
  have hread := Host.ofChars?_render h.host
  rw [hnil.1.2] at hread
  cases hread

/-- The host ends where the port begins. -/
theorem splitHost_render {host : Host} (h : host.IsCanonical) (port : Option Nat) :
    splitHost false (host.render.toList ++ renderPort port)
      = (host.render.toList, renderPort port) := by
  have hport : splitHost false (renderPort port) = ([], renderPort port) := by
    cases port <;> simp [renderPort, splitHost]
  have hname : ∀ name : List Char, (∀ c ∈ name, Host.isNameChar c = true) →
      splitHost false (name ++ renderPort port) = (name, renderPort port) := by
    intro name hname
    induction name with
    | nil => exact hport
    | cons c name ih =>
      obtain ⟨-, -, -, hcolon, hopen, hclose⟩ :=
        endsServer_of_isNameChar (hname c List.mem_cons_self)
      rw [List.cons_append, splitHost, if_neg (by simp [hcolon])]
      simp only [if_neg hopen, if_neg hclose, ih fun x hx => hname x (List.mem_cons_of_mem _ hx)]
  -- Within brackets colons do not end the host.
  have hinner : ∀ inner : List Char, (∀ c ∈ inner, c ≠ '[' ∧ c ≠ ']') →
      splitHost true (inner ++ ']' :: renderPort port) = (inner ++ [']'], renderPort port) := by
    intro inner hinner
    induction inner with
    | nil => simp [splitHost, hport]
    | cons c inner ih =>
      obtain ⟨hopen, hclose⟩ := hinner c List.mem_cons_self
      rw [List.cons_append, splitHost, if_neg (by simp)]
      simp only [if_neg hopen, if_neg hclose, ih fun x hx => hinner x (List.mem_cons_of_mem _ hx)]
      rfl
  cases host with
  | name text => exact hname _ h.1.admitted
  | ipv4 address => exact hname _ (Host.isName_render_ipv4 address).admitted
  | ipv6 groups =>
    have hgroups : ∀ c ∈ (Ipv6.render groups).toList, c ≠ '[' ∧ c ≠ ']' := by
      intro c hc
      rcases Host.mem_render_ipv6 hc with rfl | hhex
      · decide
      · exact (endsServer_of_isNameChar (Host.isNameChar_of_hexValue? hhex)).2.2.2.2
    have htext : (Host.ipv6 groups).render.toList
        = '[' :: ((Ipv6.render groups).toList ++ [']']) := by
      simp [Host.render]
    rw [htext, List.cons_append, List.append_assoc, splitHost, if_neg (by decide)]
    simp only [if_pos, List.cons_append, List.nil_append, hinner _ hgroups]

/-- The credentials, the host and the port of a server are read from their text. -/
theorem readServer_server (h : u.IsCanonical) :
    readServer Host.ofChars? (some u.scheme.port) u.server
      = some (u.credentials, u.host, u.port) := by
  have hat : '@' ∉ u.host.render.toList ++ renderPort u.port :=
    fun hmem => (endsServer_of_mem_host h hmem).2.2 rfl
  obtain ⟨written, hsplit, hcredentials⟩ := Credentials.split_render h.credentials hat
  rw [server, List.append_assoc, readServer]
  simp only [hsplit, splitHost_render h.host, Host.ofChars?_render h.host,
    readPort_render h.port, hcredentials]
  rfl

/-! ### Whole URLs -/

/-- Nothing is taken away from text without blanks and control characters. -/
theorem clean_of_visible (h : ∀ c ∈ text.toList, 0x20 < c.toNat) : clean text = text.toList := by
  have hdrop : ∀ s : List Char, (∀ c ∈ s, 0x20 < c.toNat) →
      s.dropWhile (fun c => decide (c.toNat ≤ 0x20)) = s := by
    intro s hs
    have hhead : ∀ c ∈ s.head?, decide (c.toNat ≤ 0x20) = false := by
      intro c hc
      have hlt := hs c (List.mem_of_mem_head? hc)
      rw [decide_eq_false_iff_not]
      omega
    exact (takeWhile_dropWhile_append (List.forall_mem_nil _) s hhead).2
  have hkept : ∀ c ∈ text.toList, (!Path.isDropped c) = true := by
    intro c hc
    have hlt := h c hc
    simp only [Path.isDropped, Bool.not_eq_true', Bool.or_eq_false_iff, decide_eq_false_iff_not]
    refine ⟨⟨?_, ?_⟩, ?_⟩ <;> rintro rfl <;> exact absurd hlt (by decide)
  rw [clean, strip, hdrop _ h, hdrop _ fun c hc => h c (List.mem_reverse.mp hc),
    List.reverse_reverse, List.filter_eq_self.mpr hkept]

theorem readScheme_name (scheme : Scheme) (rest : List Char) :
    readScheme (scheme.name.toList ++ "://".toList ++ rest)
      = some (scheme, '/' :: '/' :: rest) := by
  cases scheme <;> rfl

/-- The query and the fragment with the marks in front of them. -/
def trailer (u : Url) : List Char := behind '?' u.query ++ behind '#' u.fragment

theorem toList_toString (u : Url) :
    u.toString.toList = u.scheme.name.toList ++ "://".toList
      ++ (u.server ++ (Path.render u.path ++ u.trailer)) := by
  rw [toString, String.toList_ofList, toChars, origin, server, trailer]
  simp only [List.append_assoc]

theorem mem_behind {mark c : Char} {part : Option (List Char)} (h : c ∈ behind mark part) :
    c = mark ∨ ∃ text ∈ part, c ∈ text := by
  cases part with
  | none => cases h
  | some text =>
    rcases List.mem_cons.mp h with rfl | h
    · exact .inl rfl
    · exact .inr ⟨text, rfl, h⟩

theorem isPlain_of_readQuery {set : Char → Bool} {s q : List Char}
    (hset : ∀ c ∈ Percent.escapes, set c = false) (h : readQuery set s = some q) :
    Percent.IsPlain set q := by
  unfold readQuery at h
  split at h
  · cases h
  · exact Option.some.inj h ▸ Percent.isPlain_encode hset fun _ _ hc => hc

theorem isPlain_of_readFragment {s f : List Char} (h : readFragment s = some f) :
    Percent.IsPlain Percent.fragment f := by
  unfold readFragment at h
  split at h
  · cases h
  · exact Option.some.inj h ▸ Percent.isPlain_encode (by decide) fun _ _ hc => hc

/-- Query and fragment are read from their text. -/
theorem read_trailer (h : u.IsCanonical) :
    readQuery Percent.query u.trailer = u.query ∧ readFragment u.trailer = u.fragment := by
  have hquery : ∀ c ∈ behind '?' u.query, decide (c ≠ '#') = true := by
    intro c hc
    rw [decide_eq_true_eq]
    rintro rfl
    rcases mem_behind hc with hmark | ⟨q, hq, hmem⟩
    · cases hmark
    · cases (h.query q hq '#' hmem).2
  have hmark : ∀ c ∈ (behind '#' u.fragment).head?, decide (c ≠ '#') = false := by
    cases u.fragment <;> simp [behind]
  obtain ⟨htake, hdrop⟩ := takeWhile_dropWhile_append hquery (behind '#' u.fragment) hmark
  refine ⟨?_, ?_⟩
  · rw [readQuery, trailer, htake]
    cases hq : u.query with
    | none => rfl
    | some q => exact congrArg some (Percent.encode_of_isPlain (h.query q hq))
  · rw [readFragment, trailer, hdrop]
    cases hf : u.fragment with
    | none => rfl
    | some f => exact congrArg some (Percent.encode_of_isPlain (h.fragment f hf))

theorem mem_render_path {path : List (List Char)} {c : Char} (h : c ∈ Path.render path) :
    c = '/' ∨ ∃ s ∈ path, c ∈ s := by
  obtain ⟨s, hs, hc⟩ := List.mem_flatMap.mp h
  rcases List.mem_cons.mp hc with rfl | hc
  · exact .inl rfl
  · exact .inr ⟨s, hs, hc⟩

/-- Sets that hold the blank and all control characters leave visible text. -/
theorem visible_of_isPlain {set : Char → Bool} {s : List Char}
    (hset : ∀ n : Fin 0x21, set (Char.ofNat n) = true) (h : Percent.IsPlain set s) :
    ∀ c ∈ s, 0x20 < c.toNat := by
  intro c hc
  refine Nat.lt_of_not_le fun hle => ?_
  have hblank := hset ⟨c.toNat, by omega⟩
  rw [Char.ofNat_toNat, (h c hc).2] at hblank
  cases hblank

/-- What is printed of a canonical URL has no blanks and no control characters. -/
theorem visible_of_isCanonical (h : u.IsCanonical) : ∀ c ∈ u.toString.toList, 0x20 < c.toNat := by
  intro c hc
  have hscheme : ∀ scheme : Scheme, ∀ c ∈ scheme.name.toList ++ "://".toList, 0x20 < c.toNat := by
    rintro ⟨⟩ <;> decide
  rw [toList_toString] at hc
  rcases List.mem_append.mp hc with hc | hc
  · exact hscheme u.scheme c hc
  rcases List.mem_append.mp hc with hserver | hc
  · exact (endsServer_of_mem_server h hserver).2
  rcases List.mem_append.mp hc with hpath | htrailer
  · rcases mem_render_path hpath with rfl | ⟨s, hs, hc⟩
    · decide
    · exact visible_of_isPlain (by decide) (h.path s hs).isPlain_path c hc
  · rcases List.mem_append.mp htrailer with hquery | hfragment
    · rcases mem_behind hquery with rfl | ⟨q, hq, hc⟩
      · decide
      · exact visible_of_isPlain (by decide) (h.query q hq) c hc
    · rcases mem_behind hfragment with rfl | ⟨f, hf, hc⟩
      · decide
      · exact visible_of_isPlain (by decide) (h.fragment f hf) c hc

/-- What is printed of a canonical path does not end it. -/
theorem endsPath_of_mem_path (h : u.IsCanonical) {c : Char} (hc : c ∈ Path.render u.path) :
    endsPath c = false := by
  rcases mem_render_path hc with rfl | ⟨s, hs, hmem⟩
  · rfl
  · have hplain := ((h.path s hs).isPlain_path c hmem).2
    rw [endsPath, Bool.or_eq_false_iff, decide_eq_false_iff_not, decide_eq_false_iff_not]
    refine ⟨?_, ?_⟩ <;> rintro rfl <;> cases hplain

/-- **What is read is canonical.** -/
theorem isCanonical_of_parse? (h : parse? text = some u) : u.IsCanonical := by
  simp only [parse?, Option.bind_eq_bind, Option.bind_eq_some_iff] at h
  obtain ⟨⟨scheme, rest⟩, -, ⟨credentials, host, port⟩, hserver, hu⟩ := h
  obtain rfl := Option.some.inj hu
  simp only [readServer, Option.bind_eq_bind, Option.bind_eq_some_iff] at hserver
  obtain ⟨host', hhost, port', hport, hparts⟩ := hserver
  obtain ⟨rfl, rfl, rfl⟩ := Option.some.inj hparts
  exact {
    credentials := Credentials.isCanonical_ofChars _
    host := Host.isCanonical_of_ofChars? hhost
    port := le_of_readPort hport
    path_ne_nil := Path.ofChars_ne_nil _
    path := Path.isSegment_of_mem_ofChars _
    query := fun q hq => isPlain_of_readQuery (by decide) hq
    fragment := fun f hf => isPlain_of_readFragment hf }

/-- **A canonical URL is read from its text.** -/
theorem parse?_toString (h : u.IsCanonical) : parse? u.toString = some u := by
  obtain ⟨c, more, hmore⟩ := List.exists_cons_of_ne_nil (server_ne_nil h)
  have hslashes : ('/' :: '/' :: (u.server ++ (Path.render u.path ++ u.trailer))).dropWhile
      Path.isSlash = u.server ++ (Path.render u.path ++ u.trailer) := by
    have hboth : ∀ c ∈ ['/', '/'], Path.isSlash c = true := by decide
    have hc : Path.isSlash c = false := by
      have hends : endsServer c = false := (endsServer_of_mem_server h (by simp [hmore])).1
      exact (Bool.or_eq_false_iff.mp hends).1
    exact (takeWhile_dropWhile_append hboth _ (by simp [hmore, hc])).2
  have hinServer : ∀ c ∈ u.server, (!endsServer c) = true := fun c hc => by
    rw [(endsServer_of_mem_server h hc).1]
    rfl
  have hinPath : ∀ c ∈ Path.render u.path, (!endsPath c) = true := fun c hc => by
    rw [endsPath_of_mem_path h hc]
    rfl
  obtain ⟨hserver, htail⟩ := takeWhile_dropWhile_append hinServer (Path.render u.path ++ u.trailer)
    (by
      obtain ⟨s, path, hpath⟩ := List.exists_cons_of_ne_nil h.path_ne_nil
      rw [hpath]
      rintro _ ⟨⟩
      rfl)
  obtain ⟨hpath, htrailer⟩ := takeWhile_dropWhile_append hinPath u.trailer (by
    rw [trailer]
    cases u.query <;> cases u.fragment <;> simp [behind, endsPath])
  obtain ⟨hquery, hfragment⟩ := read_trailer h
  rw [parse?, clean_of_visible (visible_of_isCanonical h), toList_toString, readScheme_name]
  simp only [Option.bind_eq_bind, Option.bind_some, hslashes, hserver, htail, hpath, htrailer,
    readServer_server h, Path.ofChars_render h.path h.path_ne_nil, hquery, hfragment]
  rfl

end VaultTokens.Url
