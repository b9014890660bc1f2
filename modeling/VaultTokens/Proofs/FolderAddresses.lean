import VaultTokens.Secrets.Operation

/-!
# Where the secrets of a folder lie

The address of a secret is the path of the folder, extended by the names of the key. A slash ends a
name and every other character that means something in a path is encoded, so a name can only lead
upwards if it comes to two dots. A name of two dots is skipped. But tabs and line ends are dropped
from a name after that has been looked at, and two dots with a tab between them are two dots then.

Below the folder such a name takes back the name before it, which is one of the key, and leaves an
empty one in its place. As the first name of a key it takes back the last name of the folder. From
there it leads no further up, since the next one only takes back the empty name.

## Main results

* `isDot_encode_iff`, `isDotDot_encode_iff` — only dots are written as dots
* `extend_eq` — what one name does to a path
* `Below.extendAll` — a path below a folder stays there
* `secrets_of_folder` — which keys lead out of the folder, and where to
-/

namespace VaultTokens

namespace Url

/-! ### Dots in encoded text -/

namespace Percent

open VaultTokens.Text

/-- What is encoded differs if the text does. -/
theorem encode_injective {set : Char → Bool} (hset : set '%' = true) {s t : List Char}
    (h : encode set s = encode set t) : s = t := by
  have hbytes : Utf8.encode s = Utf8.encode t := by
    rw [← decode_encode hset s, ← decode_encode hset t, h]
  have hread := congrArg Utf8.decodeStrict hbytes
  rw [Utf8.decodeStrict_encode, Utf8.decodeStrict_encode] at hread
  exact Option.some.inj hread

theorem encode_ne_nil {set : Char → Bool} (hset : set '%' = true) {s : List Char} (hs : s ≠ []) :
    encode set s ≠ [] :=
  fun h => hs (encode_injective hset h)

end Percent

namespace Path

variable {segments folder path : List (List Char)} {name : List Char} {s : List Char}

/-- A dot stands for the byte of a dot, in all of its spellings. -/
theorem decode_of_isDot (h : isDot s = true) (rest : List Char) :
    Percent.decode (s ++ rest) = 46 :: Percent.decode rest := by
  simp only [isDot, Bool.or_eq_true, decide_eq_true_eq] at h
  rcases h with (rfl | rfl) | rfl
  · exact Percent.decode_cons_of_ne (by decide) rest
  · simp [Percent.decode, Percent.hexValue?]
  · simp [Percent.decode, Percent.hexValue?]

/-- Text that is written as a dot is a dot. -/
theorem isDot_encode_iff : isDot (Percent.encode Percent.segment s) = true ↔ s = ['.'] := by
  constructor
  · intro h
    refine Percent.encode_injective (show Percent.segment '%' = true from rfl) ?_
    have hbytes := decode_of_isDot h []
    rw [List.append_nil, Percent.decode_encode rfl] at hbytes
    have hdot : Text.Utf8.encode s = Text.Utf8.encode ['.'] := hbytes
    have hread := congrArg Text.Utf8.decodeStrict hdot
    rw [Text.Utf8.decodeStrict_encode, Text.Utf8.decodeStrict_encode] at hread
    rw [Option.some.inj hread]
  · rintro rfl
    rfl

/-- Text that is written as two dots is two dots. -/
theorem isDotDot_encode_iff :
    isDotDot (Percent.encode Percent.segment s) = true ↔ s = ['.', '.'] := by
  constructor
  · intro h
    simp only [isDotDot, Bool.and_eq_true, List.any_eq_true] at h
    obtain ⟨-, n, -, hfirst, hsecond⟩ := h
    have hbytes := decode_of_isDot hfirst ((Percent.encode Percent.segment s).drop n)
    have hlast := decode_of_isDot hsecond []
    rw [List.append_nil] at hlast
    rw [List.take_append_drop, hlast, Percent.decode_encode rfl] at hbytes
    have hdots : Text.Utf8.encode s = Text.Utf8.encode ['.', '.'] := hbytes
    have hread := congrArg Text.Utf8.decodeStrict hdots
    rw [Text.Utf8.decodeStrict_encode, Text.Utf8.decodeStrict_encode] at hread
    exact Option.some.inj hread
  · rintro rfl
    decide

/-! ### What one name does to a path -/

/-- What is left of a name once tabs and line ends are dropped. -/
def kept (name : List Char) : List Char := name.filter (!isDropped ·)

/-- Whether a name is skipped. -/
def isSkipped (name : List Char) : Bool := name = ['.'] || name = ['.', '.']

/-- What one name does to a path: a skipped name does nothing, and of the others those that keep
only dots are taken for directories. -/
theorem extend_eq (segments : List (List Char)) (name : List Char) :
    extend segments name
      = if isSkipped name then segments
        else if kept name = ['.', '.'] then climb (directories segments) ++ [[]]
        else if kept name = ['.'] then directories segments ++ [[]]
        else directories segments ++ [Percent.encode Percent.segment (kept name)] := by
  have hkept : name.filter (!isDropped ·) = kept name := rfl
  have hskip : isSkipped name = true ↔ name = ['.'] ∨ name = ['.', '.'] := by simp [isSkipped]
  have hdots : isDotDot (Percent.encode Percent.segment (kept name)) = true ↔
      kept name = ['.', '.'] := isDotDot_encode_iff
  have hdot : isDot (Percent.encode Percent.segment (kept name)) = true ↔ kept name = ['.'] :=
    isDot_encode_iff
  simp only [extend, written, enter, hkept, hskip, hdots, hdot, Bool.or_eq_true]
  by_cases h₁ : name = ['.'] ∨ name = ['.', '.']
  · rw [if_pos h₁, if_pos h₁]
  · rw [if_neg h₁, if_neg h₁]
    by_cases h₂ : kept name = ['.', '.']
    · rw [if_pos (Or.inl h₂), if_pos h₂, if_pos h₂]
    · by_cases h₃ : kept name = ['.']
      · rw [if_pos (Or.inr h₃), if_neg h₂, if_neg h₂, if_pos h₃, if_pos h₃]
      · rw [if_neg (not_or.2 ⟨h₂, h₃⟩), if_neg h₂, if_neg h₃]

theorem climb_append_empty (above : List (List Char)) : climb (above ++ [[]]) = above := by
  simp [climb, isDrive]

/-- The directory above is a directory or two less, never another one. -/
theorem climb_cases (segments : List (List Char)) :
    climb segments = segments ∨ climb segments = segments.dropLast := by
  cases h : segments.getLast? with
  | none => exact Or.inl (by rw [List.getLast?_eq_none_iff.1 h]; rfl)
  | some last =>
    simp only [climb, h]
    split
    · exact Or.inl rfl
    · exact Or.inr rfl

/-! ### Paths that stay below a folder -/

/-- A path lies below a folder if the folder stands in front of its last name. -/
def Below (folder path : List (List Char)) : Prop :=
  ∃ above last, folder <+: above ∧ path = above ++ [last]

theorem Below.isPrefix (h : Below folder path) : folder <+: path := by
  obtain ⟨above, last, habove, rfl⟩ := h
  exact habove.trans (List.prefix_append _ _)

theorem Below.of_append (last : List Char) (h : folder <+: path) : Below folder (path ++ [last]) :=
  ⟨path, last, h, rfl⟩

/-- A path that begins with a folder is the folder or lies below it. -/
theorem eq_or_below (h : folder <+: path) : path = folder ∨ Below folder path := by
  rcases path.eq_nil_or_concat with rfl | ⟨above, last, rfl⟩
  · exact Or.inl (List.prefix_nil.1 h).symm
  · rw [List.concat_eq_append] at h ⊢
    rcases List.prefix_concat_iff.1 h with heq | habove
    · exact Or.inl heq.symm
    · exact Or.inr (.of_append last habove)

/-- Behind a path below a folder other than the root further names are put as they are. -/
theorem Below.directories (h : Below folder path) (hfolder : folder ≠ []) :
    directories path = path := by
  refine if_neg ?_
  obtain ⟨above, last, habove, rfl⟩ := h
  intro hroot
  have hnone : above = [] := by
    have hlength := congrArg List.length hroot
    simpa using hlength
  subst hnone
  exact hfolder (List.prefix_nil.1 habove)

/-- A path below a folder is still there one name on. -/
theorem Below.extend (h : Below folder path) (hfolder : folder ≠ []) (name : List Char) :
    Below folder (extend path name) := by
  rw [extend_eq]
  split
  · exact h
  rw [h.directories hfolder]
  split
  · refine Below.of_append _ ?_
    rcases climb_cases path with hclimb | hclimb
    · rw [hclimb]
      exact h.isPrefix
    · obtain ⟨above, last, habove, rfl⟩ := h
      rw [hclimb, List.dropLast_concat]
      exact habove
  split
  · exact Below.of_append _ h.isPrefix
  · exact Below.of_append _ h.isPrefix

/-- **A path below a folder stays there**, whatever names follow. -/
theorem Below.extendAll (h : Below folder path) (hfolder : folder ≠ [])
    (names : List (List Char)) : Below folder (extendAll path names) := by
  induction names generalizing path with
  | nil => exact h
  | cons name names ih => exact ih (h.extend hfolder name)

/-- An empty last name keeps its place in front of the names that follow, since going up from it
leaves it where it was. -/
theorem prefix_extendAll_of_empty {above : List (List Char)} (habove : above ≠ [])
    (h : above ++ [[]] <+: path) (names : List (List Char)) :
    above ++ [[]] <+: extendAll path names := by
  induction names generalizing path with
  | nil => exact h
  | cons name names ih =>
    refine ih ?_
    rcases eq_or_below h with rfl | hbelow
    · have hplace : directories (above ++ [[]]) = above ++ [[]] := by
        refine if_neg fun hroot => habove ?_
        simpa using congrArg List.length hroot
      rw [extend_eq, hplace, climb_append_empty]
      split
      · exact List.prefix_rfl
      split
      · exact List.prefix_rfl
      split <;> exact List.prefix_append _ _
    · exact (hbelow.extend (by simp) name).isPrefix

/-! ### Names that are put as they are -/

/-- A name is plain if it is there, is not skipped and has no tab or line end. -/
structure IsPlain (name : List Char) : Prop where
  /-- The name is there. -/
  ne_nil : name ≠ []
  /-- The name is not skipped. -/
  not_skipped : isSkipped name = false
  /-- Nothing is dropped from the name. -/
  kept_eq : kept name = name

theorem extend_of_isPlain (h : IsPlain name) (segments : List (List Char)) :
    extend segments name = directories segments ++ [Percent.encode Percent.segment name] := by
  have hdots : ¬(name = ['.'] ∨ name = ['.', '.']) := by simpa [isSkipped] using h.not_skipped
  rw [extend_eq, h.not_skipped, h.kept_eq, if_neg (by decide), if_neg fun hn => hdots (.inr hn),
    if_neg fun hn => hdots (.inl hn)]

/-- Behind a name that is there further names are put as they are. -/
theorem directories_append {last : List Char} (hlast : last ≠ []) (above : List (List Char)) :
    directories (above ++ [last]) = above ++ [last] := by
  refine if_neg fun h => hlast ?_
  cases above with
  | nil => simpa using h
  | cons s above => simp at h

/-- Plain names are put behind a path one after the other. -/
theorem extendAll_of_isPlain {names : List (List Char)} (h : ∀ name ∈ names, IsPlain name)
    (segments : List (List Char)) (hnames : names ≠ []) :
    extendAll segments names
      = directories segments ++ names.map (Percent.encode Percent.segment) := by
  induction names generalizing segments with
  | nil => exact absurd rfl hnames
  | cons name names ih =>
    have hname := h name List.mem_cons_self
    rw [extendAll, List.foldl_cons, ← extendAll, extend_of_isPlain hname]
    cases names with
    | nil => rfl
    | cons next names =>
      rw [ih (fun n hn => h n (List.mem_cons_of_mem _ hn)) _ (by simp),
        directories_append (Percent.encode_ne_nil rfl hname.ne_nil)]
      simp

/-! ### Names that lead out of a folder -/

/-- Names lead out of a folder if the first that is not skipped is taken for the directory above,
unless the folder is a drive. -/
def LeadOut (folder names : List (List Char)) : Prop :=
  climb folder ≠ folder ∧ (names.find? (!isSkipped ·)).map kept = some ['.', '.']

instance (folder names : List (List Char)) : Decidable (LeadOut folder names) :=
  inferInstanceAs (Decidable (_ ∧ _))

/-- Names come to nothing, or begin with the first that is not skipped. -/
theorem extendAll_cases (path names : List (List Char)) :
    names.find? (!isSkipped ·) = none ∧ extendAll path names = path ∨
      ∃ first rest, names.find? (!isSkipped ·) = some first ∧ isSkipped first = false ∧
        extendAll path names = extendAll (extend path first) rest := by
  induction names with
  | nil => exact Or.inl ⟨rfl, rfl⟩
  | cons name names ih =>
    by_cases hskip : isSkipped name = true
    · have hsame : extend path name = path := by rw [extend_eq, if_pos hskip]
      rw [List.find?_cons_of_neg (by simp [hskip]), extendAll, List.foldl_cons, hsame]
      exact ih
    · rw [Bool.not_eq_true] at hskip
      exact Or.inr ⟨name, names, List.find?_cons_of_pos (by simp [hskip]), hskip, rfl⟩

/-- Names that do not lead out of a folder lead to a path that begins with it. -/
theorem prefix_extendAll {above names : List (List Char)} {last : List Char} (hlast : last ≠ [])
    (h : ¬LeadOut (above ++ [last]) names) :
    above ++ [last] <+: extendAll (above ++ [last]) names := by
  rcases extendAll_cases (above ++ [last]) names with
    ⟨-, hpath⟩ | ⟨first, rest, hfirst, hskip, hpath⟩
  · exact hpath.symm ▸ List.prefix_rfl
  · rw [hpath]
    refine (Below.extendAll ?_ (by simp) rest).isPrefix
    rw [extend_eq, if_neg (by simp [hskip]), directories_append hlast]
    split
    · rename_i hup
      have hclimb : climb (above ++ [last]) = above ++ [last] :=
        Decidable.byContradiction fun hne => h ⟨hne, by rw [hfirst, Option.map_some, hup]⟩
      rw [hclimb]
      exact .of_append _ List.prefix_rfl
    split <;> exact .of_append _ List.prefix_rfl

/-- Names that lead out of a folder take back its last name. Unless that was the only one, an empty
name stands in its place from then on, and nothing further up is taken back. -/
theorem extendAll_of_leadOut {above names : List (List Char)} {last : List Char}
    (hlast : last ≠ []) (h : LeadOut (above ++ [last]) names) :
    ∃ rest, extendAll (above ++ [last]) names = extendAll (above ++ [[]]) rest := by
  obtain ⟨hclimb, hup⟩ := h
  rcases extendAll_cases (above ++ [last]) names with
    ⟨hnone, -⟩ | ⟨first, rest, hfirst, hskip, hpath⟩
  · rw [hnone] at hup
    cases hup
  · rw [hfirst, Option.map_some, Option.some.injEq] at hup
    have habove : climb (above ++ [last]) = above := by
      rcases climb_cases (above ++ [last]) with heq | heq
      · exact absurd heq hclimb
      · rwa [List.dropLast_concat] at heq
    refine ⟨rest, ?_⟩
    rw [hpath, extend_eq, if_neg (by simp [hskip]), if_pos hup, directories_append hlast, habove]

end Path

end Url

namespace Secrets

open Url.Path

/-- Settings are plain if no name of the store or of the folder is skipped or has a tab or line
end. -/
def IsPlain (s : VaultSettings) : Prop :=
  ∀ name ∈ namesIn s.secretPath ++ s.folder.elim [] namesIn,
    isSkipped name = false ∧ kept name = name

/-- The path of the folder that the settings alone determine. -/
def folderPath (s : VaultSettings) (entry : Entry) : List (List Char) :=
  directories (popEmpty s.url.path)
    ++ (folderNames s entry).map (Url.Percent.encode Url.Percent.segment)

theorem ne_nil_of_mem_namesIn {text : String} {name : List Char} (h : name ∈ namesIn text) :
    name ≠ [] := by
  simpa using (List.mem_filter.1 h).2

/-- The names in front of a key are plain if the settings are. -/
theorem isPlain_of_mem_folderNames {s : VaultSettings} (h : IsPlain s) {entry : Entry}
    {name : List Char} (hname : name ∈ folderNames s entry) : Url.Path.IsPlain name := by
  rcases List.mem_append.1 hname with hpath | hrest
  · obtain ⟨hskip, hkept⟩ := h name (List.mem_append_left _ hpath)
    exact ⟨ne_nil_of_mem_namesIn hpath, hskip, hkept⟩
  rcases List.mem_cons.1 hrest with rfl | hfolder
  · cases entry <;> exact ⟨by decide, by decide, by decide⟩
  · obtain ⟨hskip, hkept⟩ := h name (List.mem_append_right _ hfolder)
    refine ⟨?_, hskip, hkept⟩
    cases hs : s.folder with
    | none =>
      rw [hs] at hfolder
      cases hfolder
    | some folder =>
      rw [hs] at hfolder
      exact ne_nil_of_mem_namesIn hfolder

/-- The path of a folder ends with a name. -/
theorem folderPath_eq_append {s : VaultSettings} (h : IsPlain s) (entry : Entry) :
    ∃ above last, last ≠ [] ∧ folderPath s entry = above ++ [last] := by
  rcases (folderNames s entry).eq_nil_or_concat with hnil | ⟨names, name, hnames⟩
  · simp [folderNames] at hnil
  · rw [List.concat_eq_append] at hnames
    have hname : name ∈ folderNames s entry := by simp [hnames]
    refine ⟨directories (popEmpty s.url.path)
      ++ names.map (Url.Percent.encode Url.Percent.segment),
      Url.Percent.encode Url.Percent.segment name,
      Url.Percent.encode_ne_nil rfl (isPlain_of_mem_folderNames h hname).ne_nil, ?_⟩
    rw [folderPath, hnames, List.map_append, List.append_assoc]
    rfl

/-- An address begins with the folder and is extended by the names of the key. -/
theorem path_address {s : VaultSettings} (h : IsPlain s) (entry : Entry) (key : String) :
    (address s entry key).path = extendAll (folderPath s entry) (namesIn key) := by
  have hnames : folderNames s entry ≠ [] := by simp [folderNames]
  change extendAll (popEmpty s.url.path) (folderNames s entry ++ namesIn key) = _
  rw [extendAll, List.foldl_append, ← extendAll, ← extendAll,
    extendAll_of_isPlain (fun name => isPlain_of_mem_folderNames h) _ hnames, folderPath]

/-- **Where the secrets of a folder lie.** The URL of an operation is that of the server but for its
path. The path begins with the folder unless the key leads out of it. A key that leads out takes
back the last name of the folder, and no other: an empty name stands in its place. -/
theorem secrets_of_folder {s : VaultSettings} (h : IsPlain s) (op : Operation) (token : String) :
    let path := (op.request s token).url.path
    let folder := folderPath s op.entry
    (op.request s token).url = { s.url with path := path } ∧
      (¬LeadOut folder (namesIn op.key) → folder <+: path) ∧
        (LeadOut folder (namesIn op.key) → folder.dropLast <+: path ∧
          (folder.dropLast ≠ [] → folder.dropLast ++ [[]] <+: path ∧ ¬folder <+: path)) := by
  intro path folder
  have hpath : path = extendAll folder (namesIn op.key) := path_address h op.entry op.key
  obtain ⟨above, last, hlast, hfolder⟩ : ∃ above last, last ≠ [] ∧ folder = above ++ [last] :=
    folderPath_eq_append h op.entry
  rw [hpath, hfolder, List.dropLast_concat]
  refine ⟨?_, prefix_extendAll hlast, fun hout => ?_⟩
  · rw [← hfolder, ← hpath]
    rfl
  obtain ⟨rest, hrest⟩ := extendAll_of_leadOut hlast hout
  have hempty : above ≠ [] → above ++ [[]] <+: extendAll (above ++ [last]) (namesIn op.key) := by
    intro habove
    rw [hrest]
    exact prefix_extendAll_of_empty habove List.prefix_rfl rest
  refine ⟨?_, fun habove => ⟨hempty habove, fun hin => hlast ?_⟩⟩
  · by_cases habove : above = []
    · rw [habove]
      exact List.nil_prefix
    · exact (List.prefix_append _ _).trans (hempty habove)
  · have heq : above ++ [last] = above ++ [[]] :=
      (List.prefix_of_prefix_length_le hin (hempty habove) (by simp)).eq_of_length (by simp)
    simpa using heq

/-- The settings of a client that keeps its secrets in a folder. -/
def teamFolder : VaultSettings where
  url := ⟨.http, ⟨[], none⟩, .name "vault.test", some 8200, [[]], none, none⟩
  method := "kubernetes"
  fallbackToken := none
  healthCheck := true
  healthPath := usualHealthPath
  standbyOk := false
  secretPath := usualSecretPath
  folder := some "team"
  timeout := usualTimeout
  method_ne := by decide
  fallback_ne := by decide
  folder_named := by
    rintro folder ⟨⟩
    decide

theorem isPlain_teamFolder : IsPlain teamFolder := by
  unfold IsPlain
  decide +kernel

/-- A key with a tab between two dots leads out of the folder, and no further. -/
theorem secrets_of_teamFolder :
    IsPlain teamFolder ∧ LeadOut (folderPath teamFolder .content) (namesIn ".\t./other") ∧
      (folderPath teamFolder .content).dropLast ++ [[]]
        <+: ((Operation.resolve ".\t./other").request teamFolder "root").url.path := by
  have hout : LeadOut (folderPath teamFolder .content) (namesIn ".\t./other") := by
    decide +kernel
  have hrest : (folderPath teamFolder .content).dropLast ≠ [] := by decide +kernel
  have h := secrets_of_folder isPlain_teamFolder (.resolve ".\t./other") "root"
  exact ⟨isPlain_teamFolder, hout, ((h.2.2 hout).2 hrest).1⟩

/-- The request for such a key is one for a secret beside the folder. -/
theorem not_in_teamFolder :
    VaultSettings.make ⟨"http://vault.test:8200", some "kubernetes", none, none, none, none, none,
        some "team", none⟩ = .ok teamFolder ∧
      (Operation.resolve ".\t./other").prepare teamFolder "root"
        = .ok ((Operation.resolve ".\t./other").request teamFolder "root") ∧
      ((Operation.resolve ".\t./other").request teamFolder "root").url.toString
        = "http://vault.test:8200/v1/secret/data//other" ∧
      ¬folderPath teamFolder .content
        <+: ((Operation.resolve ".\t./other").request teamFolder "root").url.path := by
  have hready : Http.ready ((Operation.resolve ".\t./other").request teamFolder "root")
      = .ok ((Operation.resolve ".\t./other").request teamFolder "root") :=
    Http.ready_eq_ok_iff.2 (by decide +kernel)
  refine ⟨?_, ?_, by decide +kernel, by decide +kernel⟩
  · have hparse : Url.parse? "http://vault.test:8200" = some teamFolder.url := by decide +kernel
    simp only [VaultSettings.make, readUrl, hparse]
    rfl
  · rw [Operation.prepare, hready]

end Secrets

end VaultTokens
