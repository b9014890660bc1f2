import Mathlib.Data.List.Nodup
import VaultTokens.Proofs.DocumentParts
import VaultTokens.Secrets.Operation

/-!
# How the metadata of a version is read

The metadata of a version is a record of four parts. `Describes` says which values describe which
version, whatever form the record has. For an object this comes down to the members whose names are
names of parts (`knownNames`): each of them says of the version what is so (`Agrees`), none comes
twice, and those that must be there are. What the other members are, and in which order all of them
come, does not matter.

A version is read from a text of its own, or from the store's answer to a secret that it took in,
where it is one part further inside. `ReadAs` covers both, and either way the value alone decides.

## Main results

* `ofNode?_eq_some_iff` — which values are read as which version
* `ReadAs.eq_some_iff` — from wherever they are read
* `describes_of_agrees` — an object that says what is so of a version describes it
* `version_read` — the order of the members and members of other names do not matter
-/

namespace VaultTokens.Secrets

open Json

namespace Version

/-- What the parts of a record say about a version. -/
structure Tell (v : Version) (created deleted destroyed number : Option Node) : Prop where
  /-- When it was created is there, and is a string. -/
  created : ∃ l, created = some (.string l) ∧ Means l v.createdTime.toList
  /-- When it was deleted is a string, or is not there. -/
  deleted : (deleted = none ∧ v.deletionTime = "") ∨
    ∃ l, deleted = some (.string l) ∧ Means l v.deletionTime.toList
  /-- Whether it is destroyed is a truth value, or is not there. -/
  destroyed : (destroyed = none ∧ v.destroyed = false) ∨ destroyed = some (.bool v.destroyed)
  /-- Its number is there, and is written in decimal digits. -/
  number : number = some (.number (Nat.toDigits 10 v.number.toNat))

/-- A value describes a version. -/
def Describes (node : Node) (v : Version) : Prop :=
  ∃ created deleted destroyed number,
    Parts partNames node [created, deleted, destroyed, number] ∧
      v.Tell created deleted destroyed number

variable {v : Version} {node : Node}

/-- The text of a part. -/
theorem bind_text?_eq_some_iff {part : Option Node} (h : ∀ node, part = some node → Denoted node)
    {text : String} :
    part.bind Node.text? = some text ↔ ∃ l, part = some (.string l) ∧ Means l text.toList := by
  cases part with
  | none => simp
  | some node => simp [Node.text?_eq_some_iff (h node rfl)]

/-- The text of a part that may be missing. -/
theorem elim_text?_eq_some_iff {part : Option Node} (h : ∀ node, part = some node → Denoted node)
    {text : String} :
    part.elim (some "") Node.text? = some text ↔
      (part = none ∧ text = "") ∨ ∃ l, part = some (.string l) ∧ Means l text.toList := by
  cases part with
  | none => simp [eq_comm]
  | some node => simp [Node.text?_eq_some_iff (h node rfl)]

/-- The truth value of a part that may be missing. -/
theorem elim_bool?_eq_some_iff {part : Option Node} {value : Bool} :
    part.elim (some false) Node.bool? = some value ↔
      (part = none ∧ value = false) ∨ part = some (.bool value) := by
  cases part with
  | none => simp
  | some node => simp [Node.bool?_eq_some_iff]

/-- The number that a part is. -/
theorem bind_word?_eq_some_iff {part : Option Node} (h : ∀ node, part = some node → Denoted node)
    {n : UInt64} :
    part.bind Node.word? = some n ↔ part = some (.number (Nat.toDigits 10 n.toNat)) := by
  cases part with
  | none => simp
  | some node => simp [Node.word?_eq_some_iff (h node rfl)]

theorem ofParts?_eq_some_iff_tell {created deleted destroyed number : Option Node}
    (h : ∀ node, some node ∈ [created, deleted, destroyed, number] → Denoted node) :
    ofParts? [created, deleted, destroyed, number] = some v ↔
      v.Tell created deleted destroyed number := by
  rw [ofParts?_eq_some_iff,
    bind_text?_eq_some_iff fun node hnode => h node (by simp [hnode]),
    elim_text?_eq_some_iff fun node hnode => h node (by simp [hnode]), elim_bool?_eq_some_iff,
    bind_word?_eq_some_iff fun node hnode => h node (by simp [hnode])]
  exact ⟨fun ⟨hc, hd, hx, hn⟩ => ⟨hc, hd, hx, hn⟩, fun ⟨hc, hd, hx, hn⟩ => ⟨hc, hd, hx, hn⟩⟩

/-- **A value is read as a version if and only if it describes it.** -/
theorem ofNode?_eq_some_iff (h : Denoted node) : ofNode? node = some v ↔ Describes node v := by
  rw [ofNode?, Option.bind_eq_some_iff]
  constructor
  · rintro ⟨parts, hrecord, hparts⟩
    have hrecord' := (record?_eq_some_iff h).mp hrecord
    obtain ⟨created, deleted, destroyed, number, rfl⟩ :
        ∃ created deleted destroyed number, parts = [created, deleted, destroyed, number] := by
      have hlength := length_record? hrecord
      match parts, hlength with
      | [created, deleted, destroyed, number], _ => exact ⟨_, _, _, _, rfl⟩
    exact ⟨_, _, _, _, hrecord',
      (ofParts?_eq_some_iff_tell fun _ => hrecord'.denoted h).mp hparts⟩
  · rintro ⟨created, deleted, destroyed, number, hparts, htell⟩
    exact ⟨_, (record?_eq_some_iff h).mpr hparts,
      (ofParts?_eq_some_iff_tell fun _ => hparts.denoted h).mpr htell⟩

/-! ### Members of an object -/

variable {members : List (List Symbol × Node)} {named : List (List Char × Node)}

/-- The names of the parts as texts. -/
def partTexts : List (List Char) := partNames.map String.toList

/-- The names of an object's members that are names of parts, in the order of the members. -/
def knownNames (named : List (List Char × Node)) : List (List Char) :=
  (named.map Prod.fst).filter (· ∈ partTexts)

/-- An object describes a version by the only members of the four names. -/
theorem describes_object_iff (h : Denoted (.object members)) (hnamed : Named members named) :
    Describes (.object members) v ↔
      ∃ created deleted destroyed number,
        Sole "created_time".toList named created ∧ Sole "deletion_time".toList named deleted ∧
          Sole "destroyed".toList named destroyed ∧ Sole "version".toList named number ∧
            v.Tell created deleted destroyed number := by
  constructor
  · rintro ⟨created, deleted, destroyed, number, hparts, htell⟩
    cases hparts with
    | object hnamed' hparts =>
      obtain rfl := Option.some.inj
        (((named?_eq_some_iff h).mpr hnamed').symm.trans ((named?_eq_some_iff h).mpr hnamed))
      simp only [partNames, List.forall₂_cons, List.forall₂_nil_left_iff] at hparts
      obtain ⟨hc, hd, hx, hn, -⟩ := hparts
      exact ⟨_, _, _, _, hc, hd, hx, hn, htell⟩
  · rintro ⟨created, deleted, destroyed, number, hc, hd, hx, hn, htell⟩
    exact ⟨_, _, _, _, .object hnamed (.cons hc (.cons hd (.cons hx (.cons hn .nil)))), htell⟩

/-- A member says of a version what is so, if its name is that of a part. -/
structure Agrees (v : Version) (m : List Char × Node) : Prop where
  /-- When it was created. -/
  created : m.1 = "created_time".toList → ∃ l, m.2 = .string l ∧ Means l v.createdTime.toList
  /-- When it was deleted. -/
  deleted : m.1 = "deletion_time".toList → ∃ l, m.2 = .string l ∧ Means l v.deletionTime.toList
  /-- Whether it is destroyed. -/
  destroyed : m.1 = "destroyed".toList → m.2 = .bool v.destroyed
  /-- Its number. -/
  number : m.1 = "version".toList → m.2 = .number (Nat.toDigits 10 v.number.toNat)

/-- The name of a part comes as often among the known names as among all. -/
theorem count_knownNames (named : List (List Char × Node)) {name : List Char}
    (h : name ∈ partTexts) :
    (knownNames named).count name = (named.map Prod.fst).count name :=
  List.count_filter (by simpa using h)

/-- A part whose name does not come twice is the only member of its name, if it is there. -/
theorem exists_sole {name : List Char} (hpart : name ∈ partTexts)
    (hnodup : (knownNames named).Nodup) :
    (name ∉ knownNames named ∧ Sole name named none) ∨
      (name ∈ knownNames named ∧ ∃ node, (name, node) ∈ named ∧ Sole name named (some node)) := by
  have hmem : name ∈ knownNames named ↔ name ∈ named.map Prod.fst := by
    simp [knownNames, hpart]
  by_cases h : name ∈ named.map Prod.fst
  · obtain ⟨⟨_, node⟩, hnode, rfl⟩ := List.mem_map.mp h
    have hcount := List.nodup_iff_count_le_one.mp hnodup
    exact .inr ⟨hmem.mpr h, node, hnode,
      .of_mem hnode (count_knownNames named hpart ▸ hcount _)⟩
  · exact .inl ⟨fun hknown => h (hmem.mp hknown), .absent h⟩

/-- The version as which it is read where only some of the parts are given. -/
def given (v : Version) (names : List (List Char)) : Version :=
  { v with
    deletionTime := if "deletion_time".toList ∈ names then v.deletionTime else ""
    destroyed := if "destroyed".toList ∈ names then v.destroyed else false }

/-- An object that says what is so of a version describes it. -/
theorem describes_of_agrees (h : Denoted (.object members)) (hnamed : Named members named)
    (hagrees : ∀ m ∈ named, v.Agrees m) (hnodup : (knownNames named).Nodup)
    (hcreated : "created_time".toList ∈ knownNames named)
    (hnumber : "version".toList ∈ knownNames named) :
    Describes (.object members) (v.given (knownNames named)) := by
  have hpart : ∀ name ∈ partNames, name.toList ∈ partTexts := fun _ => List.mem_map_of_mem
  rw [describes_object_iff h hnamed]
  -- the two parts that must be there
  obtain ⟨habsent, -⟩ | ⟨-, created, hc, hcsole⟩ :=
    exists_sole (hpart "created_time" (by decide)) hnodup
  · exact absurd hcreated habsent
  obtain ⟨habsent, -⟩ | ⟨-, number, hn, hnsole⟩ :=
    exists_sole (hpart "version" (by decide)) hnodup
  · exact absurd hnumber habsent
  -- the two parts that may be missing, each with what is read then
  obtain ⟨deleted, hdsole, hdeleted⟩ : ∃ deleted, Sole "deletion_time".toList named deleted ∧
      ((deleted = none ∧ (v.given (knownNames named)).deletionTime = "") ∨
        ∃ l, deleted = some (.string l) ∧
          Means l (v.given (knownNames named)).deletionTime.toList) := by
    obtain ⟨habsent, hsole⟩ | ⟨hthere, deleted, hd, hsole⟩ :=
      exists_sole (hpart "deletion_time" (by decide)) hnodup
    · exact ⟨none, hsole, .inl ⟨rfl, if_neg habsent⟩⟩
    · obtain ⟨l, rfl, hl⟩ := (hagrees _ hd).deleted rfl
      exact ⟨_, hsole, .inr ⟨l, rfl, by rwa [given, if_pos hthere]⟩⟩
  obtain ⟨destroyed, hxsole, hdestroyed⟩ : ∃ destroyed, Sole "destroyed".toList named destroyed ∧
      ((destroyed = none ∧ (v.given (knownNames named)).destroyed = false) ∨
        destroyed = some (.bool (v.given (knownNames named)).destroyed)) := by
    obtain ⟨habsent, hsole⟩ | ⟨hthere, destroyed, hx, hsole⟩ :=
      exists_sole (hpart "destroyed" (by decide)) hnodup
    · exact ⟨none, hsole, .inl ⟨rfl, if_neg habsent⟩⟩
    · obtain rfl := (hagrees _ hx).destroyed rfl
      exact ⟨_, hsole, .inr (by simp only [given]; rw [if_pos hthere])⟩
  obtain ⟨l, rfl, hl⟩ := (hagrees _ hc).created rfl
  obtain rfl := (hagrees _ hn).number rfl
  exact ⟨_, _, _, _, hcsole, hdsole, hxsole, hnsole, ⟨l, rfl, hl⟩, hdeleted, hdestroyed, rfl⟩

/-- Characters of a number that is no natural number of 64 bits: it has a sign, a point or an
exponent, or it is too large. -/
def Unfit (l : List Char) : Prop :=
  '-' ∈ l ∨ '.' ∈ l ∨ 'e' ∈ l ∨ 'E' ∈ l ∨ ∃ n, UInt64.size ≤ n ∧ l = Nat.toDigits 10 n

theorem not_mem_toDigits_of_not_isDigit {c : Char} (hc : c.isDigit = false) (n : Nat) :
    c ∉ Nat.toDigits 10 n := by
  intro h
  rw [Nat.isDigit_of_mem_toDigits (by decide) (by decide) h] at hc
  cases hc

/-- Such characters are not the digits of a number of 64 bits. -/
theorem Unfit.ne_toDigits {l : List Char} (h : Unfit l) (n : UInt64) :
    l ≠ Nat.toDigits 10 n.toNat := by
  rintro rfl
  rcases h with h | h | h | h | ⟨m, hm, heq⟩
  case inr.inr.inr.inr =>
    have hvalue := congrArg (Nat.ofDigitChars 10 · 0) heq
    simp only [Nat.ofDigitChars_ten_toDigits] at hvalue
    have hlt : n.toNat < UInt64.size := n.toNat_lt
    omega
  all_goals exact not_mem_toDigits_of_not_isDigit rfl _ h

/-! ### The ways to read a version -/

/-- The version that was written, if something comes of an operation and it is a version. -/
def written? (outcome : Except Failure Gain) : Option Version :=
  match outcome with
  | .ok (.version v) => some v
  | _ => none

/-- A value is read as a version, or as none: from a text of its own, or from the store's answer
to a secret that it took in. -/
inductive ReadAs (node : Node) : Option Version → Prop where
  | alone {text : String} (h : Document (text.toList.map some) node) : ReadAs node (parse? text)
  | stored {key content : String} {url : Url} {status : Nat} {bytes : List UInt8} {answer : Node}
    (hstatus : 200 ≤ status ∧ status < 300)
    (hanswer : Document (Text.Utf8.decode bytes) answer)
    (hdata : Parts ["data"] answer [some node]) :
    ReadAs node
      (written? (Operation.conclude (.store key content) url (.response status (some bytes))))

/-- Of the store's answer only its one part matters. -/
theorem ofAnswer?_eq {answer : Node} (h : Denoted answer)
    (hdata : Parts ["data"] answer [some node]) :
    ofAnswer? answer = ofNode? node := by
  rw [ofAnswer?, (record?_eq_some_iff h).mpr hdata]

theorem ReadAs.denoted {result : Option Version} (h : ReadAs node result) : Denoted node := by
  cases h with
  | alone h => exact h.denoted
  | stored hstatus hanswer hdata => exact hdata.denoted hanswer.denoted (by simp)

/-- From wherever a value is read, it decides alone. -/
theorem ReadAs.eq_ofNode? {result : Option Version} (h : ReadAs node result) :
    result = ofNode? node := by
  cases h with
  | alone h => rw [parse?, parse?_eq_some_iff.mpr h, Option.bind_some]
  | stored hstatus hanswer hdata =>
    have hsuccess : Http.isSuccess _ = true :=
      Bool.and_eq_true_iff.mpr ⟨decide_eq_true hstatus.1, decide_eq_true hstatus.2⟩
    rw [Operation.conclude, if_pos hsuccess, Operation.concludeSuccess, Operation.concludeStore,
      Http.document?, Option.bind_some, parse?_eq_some_iff.mpr hanswer, Option.bind_some,
      ofAnswer?_eq hanswer.denoted hdata]
    cases ofNode? node <;> rfl

/-- **How a value is read as a version.** -/
theorem ReadAs.eq_some_iff {result : Option Version} (h : ReadAs node result) :
    result = some v ↔ Describes node v := by
  rw [h.eq_ofNode?, ofNode?_eq_some_iff h.denoted]

theorem ReadAs.eq_none {result : Option Version} (h : ReadAs node result)
    (hnone : ∀ v, ¬ Describes node v) : result = none :=
  Option.eq_none_iff_forall_ne_some.mpr fun v hv => hnone v (h.eq_some_iff.mp hv)

/-- If a value is read as a version, so its members are found, each under its name. -/
theorem exists_sole_of_describes (h : Denoted (.object members)) (hnamed : Named members named)
    (hdescribes : Describes (.object members) v) {name : String} (hpart : name ∈ partNames) :
    ∃ part, Sole name.toList named part := by
  obtain ⟨created, deleted, destroyed, number, hc, hd, hx, hn, -⟩ :=
    (describes_object_iff h hnamed).mp hdescribes
  simp only [partNames, List.mem_cons, List.not_mem_nil, or_false] at hpart
  rcases hpart with rfl | rfl | rfl | rfl
  exacts [⟨_, hc⟩, ⟨_, hd⟩, ⟨_, hx⟩, ⟨_, hn⟩]

/-- **Neither the order of its members nor members of other names change how version metadata is
read.** All four parts, in any order and among any others, give the version that they agree on.
Without the time of deletion this time is empty, and without a word on whether it is destroyed the
version is not. Nothing is read where one of the other two is missing, where one of the four comes
twice, or where the number is not one of 64 bits. -/
theorem version_read {result : Option Version} (hread : ReadAs (.object members) result)
    (hnamed : Named members named) :
    (∀ v : Version, (∀ m ∈ named, v.Agrees m) → (knownNames named).Perm partTexts →
        result = some v) ∧
      (∀ v : Version, (∀ m ∈ named, v.Agrees m) → (knownNames named).Nodup →
        "created_time".toList ∈ knownNames named → "version".toList ∈ knownNames named →
          result = some { v with
            deletionTime :=
              if "deletion_time".toList ∈ knownNames named then v.deletionTime else ""
            destroyed := if "destroyed".toList ∈ knownNames named then v.destroyed else false }) ∧
      (∀ name ∈ ["created_time", "version"], name.toList ∉ named.map Prod.fst → result = none) ∧
      (∀ name ∈ partNames, 2 ≤ (named.map Prod.fst).count name.toList → result = none) ∧
      ∀ l, ("version".toList, .number l) ∈ named → Unfit l → result = none := by
  have hdenoted := hread.denoted
  refine ⟨fun v hagrees hperm => ?_, fun v hagrees hnodup hcreated hnumber => ?_,
    fun name hname hmissing => ?_, fun name hname hcount => ?_, fun l hmem hunfit => ?_⟩
  · have hmem : ∀ name ∈ partTexts, name ∈ knownNames named := fun _ => hperm.mem_iff.mpr
    have hnodup : (knownNames named).Nodup := hperm.nodup_iff.mpr (by decide)
    have hdescribes := describes_of_agrees hdenoted hnamed hagrees hnodup (hmem _ (by decide))
      (hmem _ (by decide))
    rw [given, if_pos (hmem _ (by decide)), if_pos (hmem _ (by decide))] at hdescribes
    exact hread.eq_some_iff.mpr hdescribes
  · exact hread.eq_some_iff.mpr
      (describes_of_agrees hdenoted hnamed hagrees hnodup hcreated hnumber)
  · refine hread.eq_none fun v hdescribes => ?_
    obtain ⟨created, deleted, destroyed, number, hc, hd, hx, hn, htell⟩ :=
      (describes_object_iff hdenoted hnamed).mp hdescribes
    obtain ⟨l, rfl, -⟩ := htell.created
    obtain rfl := htell.number
    simp only [List.mem_cons, List.not_mem_nil, or_false] at hname
    rcases hname with rfl | rfl
    · exact hmissing (List.mem_map_of_mem hc.mem)
    · exact hmissing (List.mem_map_of_mem hn.mem)
  · refine hread.eq_none fun v hdescribes => ?_
    obtain ⟨part, hsole⟩ := exists_sole_of_describes hdenoted hnamed hdescribes hname
    exact absurd hsole.count_le_one (by omega)
  · refine hread.eq_none fun v hdescribes => ?_
    obtain ⟨created, deleted, destroyed, number, -, -, -, hn, htell⟩ :=
      (describes_object_iff hdenoted hnamed).mp hdescribes
    have hnumber := (hn.eq_some hmem).symm.trans htell.number
    exact hunfit.ne_toDigits _ (Node.number.inj (Option.some.inj hnumber))

/-- The number first, a member of another name, and when the version was created. -/
def shortMembers : List (List Char × Node) :=
  [("version".toList, .number ['3']), ("by".toList, .array [.null]),
    ("created_time".toList, .string [some 'a'])]

theorem version_read_short :
    parse? "\x7b\"version\":3,\"by\":[null],\"created_time\":\"a\"\x7d"
      = some ⟨"a", "", false, 3⟩ := by
  have hdocument : Document
      ("\x7b\"version\":3,\"by\":[null],\"created_time\":\"a\"\x7d".toList.map some)
      (.object (shortMembers.map fun m => (m.1.map some, m.2))) := by
    rw [← parse?_eq_some_iff]
    simp [Json.parse?, scanValue, scanItems, scanMembers, scanString, skip, isSpace, word?,
      scanNumber, scanUnsigned, scanDigits, scanFraction, scanExponent, shortMembers]
  have hnamed : Named (shortMembers.map fun m => (m.1.map some, m.2)) shortMembers :=
    .cons ⟨means_map_some (by decide), rfl⟩ (.cons ⟨means_map_some (by decide), rfl⟩
      (.cons ⟨means_map_some (by decide), rfl⟩ .nil))
  have hagrees : ∀ m ∈ shortMembers, Version.Agrees ⟨"a", "", false, 3⟩ m := by
    simp only [shortMembers, List.forall_mem_cons]
    refine ⟨⟨?_, ?_, ?_, fun _ => rfl⟩, ⟨?_, ?_, ?_, ?_⟩,
      ⟨fun _ => ⟨_, rfl, .plain (by decide) .nil⟩, ?_, ?_, ?_⟩, List.forall_mem_nil _⟩
    all_goals exact fun h => absurd h (by decide)
  have hknown : knownNames shortMembers = ["version".toList, "created_time".toList] := by decide
  have hread := (version_read (.alone hdocument) hnamed).2.1 ⟨"a", "", false, 3⟩ hagrees
  rw [hknown] at hread
  exact hread (by decide) (by decide) (by decide)

end Version

end VaultTokens.Secrets
