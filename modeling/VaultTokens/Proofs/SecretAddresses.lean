import VaultTokens.Proofs.FolderAddresses
import VaultTokens.Proofs.PrintedUrls

/-!
# Different keys, different addresses

The address of a secret is the path of its folder and behind it the names of the key, each encoded
by itself. A name is encoded with everything that ends a segment or begins an escape, so what a
server reads in the path are these segments, and what it decodes from them are the names. Two keys
that differ have different names, and so different addresses.

This takes keys without empty names, without names that are skipped and without tabs and line ends,
all of which are lost on the way into a path.

## Main results

* `path_of_isPlainKey` — the path of a secret, segment by segment
* `secret_addresses` — different keys have different addresses
-/

namespace VaultTokens

namespace Url

/-! ### Paths that are extended -/

namespace Path

variable {name s : List Char} {path other : List (List Char)}

instance : DecidablePred IsPlain := fun name =>
  decidable_of_iff (name ≠ [] ∧ isSkipped name = false ∧ kept name = name)
    ⟨fun ⟨hne, hskipped, hkept⟩ => ⟨hne, hskipped, hkept⟩,
      fun ⟨hne, hskipped, hkept⟩ => ⟨hne, hskipped, hkept⟩⟩

/-- A plain name is written as one segment. -/
theorem isSegment_encode (h : IsPlain name) :
    IsSegment (Percent.encode Percent.segment name) := by
  have hskipped := h.not_skipped
  simp only [isSkipped, Bool.or_eq_false_iff, decide_eq_false_iff_not] at hskipped
  refine ⟨Percent.isPlain_encode (by decide) fun c _ hc => ?_, ?_, ?_⟩
  · simp only [Percent.segment, Bool.or_eq_false_iff] at hc
    obtain ⟨⟨⟨hpath, hslash⟩, -⟩, hback⟩ := hc
    rw [endsSegment, hpath, isSlash, hslash, hback]
    rfl
  · rw [Bool.eq_false_iff]
    exact fun hdot => hskipped.1 (isDot_encode_iff.mp hdot)
  · rw [Bool.eq_false_iff]
    exact fun hdots => hskipped.2 (isDotDot_encode_iff.mp hdots)

theorem mem_of_mem_popEmpty (h : s ∈ popEmpty path) : s ∈ path := by
  rw [popEmpty] at h
  split at h
  · exact h
  · split at h
    · exact (List.dropLast_sublist path).subset h
    · exact h

theorem mem_of_mem_directories (h : s ∈ directories path) : s ∈ path := by
  rw [directories] at h
  split at h
  · cases h
  · exact h

/-- Paths are printed differently if they differ. -/
theorem render_injective (hpath : ∀ s ∈ path, IsSegment s) (hother : ∀ s ∈ other, IsSegment s)
    (hne : path ≠ []) (hne' : other ≠ []) (h : render path = render other) : path = other := by
  rw [← split_render (fun s hs => (hpath s hs).isSlash_eq_false) hne,
    ← split_render (fun s hs => (hother s hs).isSlash_eq_false) hne', h]

end Path

end Url

namespace Secrets

open Url.Path

variable {s : VaultSettings} {key : String} {entry : Entry}

/-! ### Plain keys -/

/-- A key is plain if it is made of plain names with single slashes between them. -/
def IsPlainKey (key : String) : Prop := ∀ name ∈ key.toList.splitOn '/', Url.Path.IsPlain name

instance : DecidablePred IsPlainKey := fun key =>
  inferInstanceAs (Decidable (∀ name ∈ key.toList.splitOn '/', Url.Path.IsPlain name))

theorem namesIn_of_isPlainKey (h : IsPlainKey key) : namesIn key = key.toList.splitOn '/' := by
  refine List.filter_eq_self.mpr fun name hname => ?_
  simpa using (h name hname).ne_nil

/-- What a segment of a path decodes to, if that is text. -/
def decoded (segment : List Char) : Option (List Char) :=
  Text.Utf8.decodeStrict (Url.Percent.decode segment)

theorem decoded_encode (name : List Char) :
    decoded (Url.Percent.encode Url.Percent.segment name) = some name := by
  rw [decoded, Url.Percent.decode_encode rfl, Text.Utf8.decodeStrict_encode]

/-- **The path of a secret, segment by segment.** -/
theorem path_of_isPlainKey (h : IsPlain s) (entry : Entry) (hkey : IsPlainKey key) :
    (address s entry key).path = folderPath s entry
      ++ (key.toList.splitOn '/').map (Url.Percent.encode Url.Percent.segment) := by
  obtain ⟨above, last, hlast, hfolder⟩ := folderPath_eq_append h entry
  have hplace : directories (folderPath s entry) = folderPath s entry := by
    rw [hfolder, directories_append hlast]
  rw [path_address h, namesIn_of_isPlainKey hkey,
    extendAll_of_isPlain hkey _ (List.splitOn_ne_nil _ _), hplace]

/-- The folder's path has segments as they are printed. -/
theorem isSegment_of_mem_folderPath (hcan : s.url.IsCanonical) (h : IsPlain s) :
    ∀ t ∈ folderPath s entry, IsSegment t := by
  intro t ht
  rcases List.mem_append.mp ht with hserver | hnames
  · exact hcan.path t (mem_of_mem_popEmpty (mem_of_mem_directories hserver))
  · obtain ⟨name, hname, rfl⟩ := List.mem_map.mp hnames
    exact isSegment_encode (isPlain_of_mem_folderNames h hname)

/-- An address is printed as it is. -/
theorem isCanonical_address (hcan : s.url.IsCanonical) (h : IsPlain s) (hkey : IsPlainKey key) :
    (address s entry key).IsCanonical := by
  have hpath := path_of_isPlainKey h entry hkey
  refine { hcan with path_ne_nil := ?_, path := fun t ht => ?_ }
  · rw [hpath]
    simp [List.splitOn_ne_nil]
  · rw [hpath] at ht
    rcases List.mem_append.mp ht with hfolder | hname
    · exact isSegment_of_mem_folderPath hcan h t hfolder
    · obtain ⟨name, hmem, rfl⟩ := List.mem_map.mp hname
      exact isSegment_encode (hkey name hmem)

/-- The segments of two keys are different if the keys are. -/
theorem eq_of_segments_eq {other : String}
    (h : (key.toList.splitOn '/').map (Url.Percent.encode Url.Percent.segment)
      = (other.toList.splitOn '/').map (Url.Percent.encode Url.Percent.segment)) : key = other := by
  have hnames : key.toList.splitOn '/' = other.toList.splitOn '/' :=
    (List.map_inj_right fun _ _ => Url.Percent.encode_injective rfl).mp h
  have htext : key.toList = other.toList := by
    calc key.toList
        = ['/'].intercalate (key.toList.splitOn '/') := (List.intercalate_splitOn '/').symm
      _ = ['/'].intercalate (other.toList.splitOn '/') := by rw [hnames]
      _ = other.toList := List.intercalate_splitOn '/'
  rw [← String.ofList_toList (s := key), htext, String.ofList_toList]

/-- The content of a secret and all that is known about it lie in the same place but for one
name. -/
theorem folderPath_eq_append_cons (s : VaultSettings) :
    ∃ front behind, ∀ entry, folderPath s entry = front ++ entry.name.toList :: behind := by
  refine ⟨directories (popEmpty s.url.path)
    ++ (namesIn s.secretPath).map (Url.Percent.encode Url.Percent.segment),
    (s.folder.elim [] namesIn).map (Url.Percent.encode Url.Percent.segment), fun entry => ?_⟩
  have hname : Url.Percent.encode Url.Percent.segment entry.name.toList = entry.name.toList := by
    cases entry <;> decide
  rw [folderPath, folderNames, List.map_append, List.map_cons, hname, List.append_assoc]

/-- **Different keys have different addresses.** An address is the path of the folder and behind it
one segment for each name of the key, which decodes to that name; a server reads it in these parts.
Where an operation looks for the content of a secret and where another one looks for all that is
known about it differs in one segment. -/
theorem secret_addresses {c : VaultSettings.Choices} (hmake : VaultSettings.make c = .ok s)
    (hs : IsPlain s) {op other : Operation} (hop : IsPlainKey op.key)
    (hother : IsPlainKey other.key) (token : String) :
    let url := (op.request s token).url
    let url' := (other.request s token).url
    (∃ behind, behind ≠ [] ∧ url.path = folderPath s op.entry ++ behind ∧
        behind.map decoded = (op.key.toList.splitOn '/').map some) ∧
      Url.parse? url.toString = some url ∧
      (op.entry = other.entry → op.key ≠ other.key →
        url.toString ≠ url'.toString ∧ Url.Path.render url.path ≠ Url.Path.render url'.path) ∧
      (op.key = other.key → ∃ front behind,
        url = { s.url with path := front ++ op.entry.name.toList :: behind } ∧
          url' = { s.url with path := front ++ other.entry.name.toList :: behind }) := by
  intro url url'
  have hcan : s.url.IsCanonical :=
    Url.isCanonical_of_parse? (readUrl_eq_ok_iff.mp (VaultSettings.make_eq_ok hmake).1)
  have hpath : url.path = folderPath s op.entry
      ++ (op.key.toList.splitOn '/').map (Url.Percent.encode Url.Percent.segment) :=
    path_of_isPlainKey hs op.entry hop
  have hpath' : url'.path = folderPath s other.entry
      ++ (other.key.toList.splitOn '/').map (Url.Percent.encode Url.Percent.segment) :=
    path_of_isPlainKey hs other.entry hother
  have hurl : url.IsCanonical := isCanonical_address hcan hs hop
  have hurl' : url'.IsCanonical := isCanonical_address hcan hs hother
  refine ⟨⟨_, ?_, hpath, ?_⟩, Url.parse?_toString hurl, fun hentry hkey => ?_, fun hkey => ?_⟩
  · simp [List.splitOn_ne_nil]
  · rw [List.map_map]
    exact List.map_congr_left fun name _ => decoded_encode name
  · have hne : url.path ≠ url'.path := by
      intro heq
      rw [hpath, hpath', hentry] at heq
      exact hkey (eq_of_segments_eq (List.append_cancel_left heq))
    refine ⟨fun htext => hne ?_, fun htext => hne ?_⟩
    · have hread := Url.parse?_toString hurl
      rw [htext, Url.parse?_toString hurl'] at hread
      rw [Option.some.inj hread]
    · exact render_injective hurl.path hurl'.path hurl.path_ne_nil hurl'.path_ne_nil htext
  · obtain ⟨front, behind, hfolder⟩ := folderPath_eq_append_cons s
    refine ⟨front, behind
      ++ (op.key.toList.splitOn '/').map (Url.Percent.encode Url.Percent.segment), ?_, ?_⟩
    · rw [← List.cons_append, ← List.append_assoc, ← hfolder op.entry, ← hpath]
      rfl
    · rw [← List.cons_append, ← List.append_assoc, ← hfolder other.entry, hkey, ← hpath']
      rfl

/-- A blank in a key and its escape written out are two names. -/
theorem addresses_of_blank_and_escape :
    VaultSettings.make ⟨"http://vault.test:8200", some "kubernetes", none, none, none, none, none,
        some "team", none⟩ = .ok teamFolder ∧
      IsPlain teamFolder ∧ IsPlainKey "db/first user" ∧ IsPlainKey "db/first%20user" ∧
      ((Operation.resolve "db/first user").request teamFolder "root").url.toString
        ≠ ((Operation.resolve "db/first%20user").request teamFolder "root").url.toString := by
  have hparse : Url.parse? "http://vault.test:8200" = some teamFolder.url := by decide +kernel
  have hmake : VaultSettings.make ⟨"http://vault.test:8200", some "kubernetes", none, none, none,
      none, none, some "team", none⟩ = .ok teamFolder := by
    simp only [VaultSettings.make, readUrl, hparse]
    rfl
  have hblank : IsPlainKey (Operation.resolve "db/first user").key := by decide +kernel
  have hescape : IsPlainKey (Operation.resolve "db/first%20user").key := by decide +kernel
  obtain ⟨-, -, hdifferent, -⟩ :=
    secret_addresses hmake isPlain_teamFolder hblank hescape "root"
  exact ⟨hmake, isPlain_teamFolder, hblank, hescape, (hdifferent rfl (by decide)).1⟩

end Secrets

end VaultTokens
