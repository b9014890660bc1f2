import Mathlib.Data.List.Forall2
import Mathlib.Data.Nat.Digits.Defs
import VaultTokens.Http
import VaultTokens.Json.Record
import VaultTokens.Proofs.DenotedDocuments

/-!
# The parts of a document

Records, texts and numbers are read off a value by functions that look at one mark after the other.
Each of them has a description here that names what it finds: `Means` for the text of a literal,
`Sole` for the only member of a name, `Parts` for the parts of a record, `Nat.toDigits` for a number
and `Readable` for a value that is read to its end without being kept.

The descriptions hold of values that some symbols denote, since only then is a literal one and a
number in the form that the grammar gives it. Whatever is part of such a value is one too, which is
why `Denoted` is handed down to items, members and parts.

## Main results

* `text?_eq_some_iff` — a literal is read as a text if and only if it means it
* `only?_eq_some_iff`, `record?_eq_some_iff` — the parts of a record
* `Node.word?_eq_some_iff` — a number of 64 bits is written as its decimal digits
* `isReadable_iff` — what can be read to its end
* `Reply.carries_response_iff` — the document that a reply carries
-/

namespace VaultTokens.Json

/-! ### Texts -/

/-- A literal means a text: a character means itself, an escape the character it stands for, and two
escaped surrogates the character of which they are the halves. -/
inductive Means : List Symbol → List Char → Prop where
  | nil : Means [] []
  | plain {c : Char} {l : List Symbol} {t : List Char} (hslash : c ≠ '\\') (h : Means l t) :
    Means (some c :: l) (c :: t)
  | short {e c : Char} {l : List Symbol} {t : List Char} (he : unescape? e = some c)
    (h : Means l t) : Means (some '\\' :: some e :: l) (c :: t)
  | unit {a b c d : Char} {n : Nat} {l : List Symbol} {t : List Char}
    (hn : hex4? a b c d = some n) (hunit : n < 0xd800 ∨ 0xdfff < n) (h : Means l t) :
    Means (some '\\' :: some 'u' :: some a :: some b :: some c :: some d :: l) (Char.ofNat n :: t)
  | pair {a b c d a' b' c' d' : Char} {high low : Nat} {l : List Symbol} {t : List Char}
    (hhigh : hex4? a b c d = some high) (hle : 0xd800 ≤ high ∧ high ≤ 0xdbff)
    (hlow : hex4? a' b' c' d' = some low) (hle' : 0xdc00 ≤ low ∧ low ≤ 0xdfff)
    (h : Means l t) :
    Means (some '\\' :: some 'u' :: some a :: some b :: some c :: some d ::
      some '\\' :: some 'u' :: some a' :: some b' :: some c' :: some d' :: l)
      (Char.ofNat (0x10000 + (high - 0xd800) * 0x400 + (low - 0xdc00)) :: t)

/-- Characters without a backslash mean themselves. -/
theorem means_map_some {t : List Char} (h : '\\' ∉ t) : Means (t.map some) t := by
  induction t with
  | nil => exact .nil
  | cons c t ih =>
    rw [List.mem_cons, not_or] at h
    exact .plain (fun hc => h.1 hc.symm) (ih h.2)

/-- A literal is read as the text that it means. -/
theorem Means.text?_eq {l : List Symbol} {t : List Char} (h : Means l t) : text? l = some t := by
  induction h with
  | nil => rfl
  | plain hslash h ih =>
    rw [text?, ih]
    · rfl
    all_goals simp_all
  | short he h ih =>
    have hu := ne_u_of_unescape? he
    rw [text?, he, ih]
    · rfl
    · exact fun _ _ _ _ _ _ => hu
  | unit hn hunit h ih =>
    rw [text?, hn]
    simp [hunit, ih]
  | pair hhigh hle hlow hle' h ih =>
    rw [text?, hhigh]
    simp only [Option.bind_eq_bind, Option.bind_some]
    rw [if_neg (by omega), if_neg (by omega), hlow, Option.bind_some, if_pos hle', ih]
    rfl

theorem IsLiteral.of_unit {a b c d : Char} {l : List Symbol}
    (h : IsLiteral (some '\\' :: some 'u' :: some a :: some b :: some c :: some d :: l)) :
    IsLiteral l := by
  cases h with
  | plain hquote hslash => exact absurd rfl hslash
  | short he => cases he
  | unit hn h => exact h

theorem IsLiteral.of_short {e c : Char} (he : unescape? e = some c) {l : List Symbol}
    (h : IsLiteral (some '\\' :: some e :: l)) : IsLiteral l := by
  cases h with
  | plain hquote hslash => exact absurd rfl hslash
  | short he h => exact h
  | unit => cases he

theorem IsLiteral.of_plain {c : Char} {l : List Symbol} (h : IsLiteral (some c :: l))
    (hescape : ∀ e more, l = some e :: more → c ≠ '\\') : c ≠ '\\' ∧ IsLiteral l := by
  cases h with
  | plain hquote hslash hcontrol h => exact ⟨hslash, h⟩
  | short => exact absurd rfl (hescape _ _ rfl)
  | unit => exact absurd rfl (hescape _ _ rfl)

/-- A literal means the text as which it is read. -/
theorem means_of_text? {l : List Symbol} (hl : IsLiteral l) {t : List Char}
    (h : text? l = some t) : Means l t := by
  fun_induction text? l generalizing t with
  | case1 =>
    obtain rfl := Option.some.inj h
    exact .nil
  | case2 => cases h
  | case3 a b c d rest ih ihpair =>
    simp only [Option.bind_eq_bind, Option.bind_eq_some_iff, Option.pure_def] at h
    obtain ⟨high, hhigh, h⟩ := h
    split at h
    · rename_i hunit
      simp only [Option.bind_eq_some_iff, Option.some.injEq] at h
      obtain ⟨more, hmore, rfl⟩ := h
      exact .unit hhigh hunit (ih hl.of_unit hmore)
    split at h
    · cases h
    split at h
    · simp only [Option.bind_eq_some_iff] at h
      obtain ⟨low, hlow, h⟩ := h
      split at h
      · rename_i hle'
        simp only [Option.bind_eq_some_iff, Option.some.injEq] at h
        obtain ⟨more, hmore, rfl⟩ := h
        exact .pair hhigh (by omega) hlow hle' (ihpair hl.of_unit.of_unit hmore)
      · cases h
    · cases h
  | case4 e rest hu ih =>
    simp only [Option.bind_eq_bind, Option.bind_eq_some_iff, Option.pure_def, Option.some.injEq]
      at h
    obtain ⟨c, hc, more, hmore, rfl⟩ := h
    exact .short hc (ih (hl.of_short hc) hmore)
  | case5 c rest _ hescape ih =>
    obtain ⟨hslash, hrest⟩ := hl.of_plain hescape
    obtain ⟨more, hmore, rfl⟩ := Option.map_eq_some_iff.mp h
    exact .plain hslash (ih hrest hmore)

/-- **A literal is read as a text if and only if it means it.** -/
theorem text?_eq_some_iff {l : List Symbol} (hl : IsLiteral l) {t : List Char} :
    text? l = some t ↔ Means l t :=
  ⟨means_of_text? hl, Means.text?_eq⟩

/-! ### Parts of a denoted value -/

/-- Some symbols denote the value. -/
def Denoted (node : Node) : Prop := ∃ value, Denotes value node

namespace Denoted

variable {node : Node}

theorem literal {l : List Symbol} (h : Denoted (.string l)) : IsLiteral l := by
  obtain ⟨value, h⟩ := h
  cases h with
  | string h => exact h

theorem number {l : List Char} (h : Denoted (.number l)) : IsNumber l := by
  obtain ⟨value, h⟩ := h
  cases h with
  | number h => exact h

theorem item {items : List Node} (h : Denoted (.array items)) {item : Node} (hitem : item ∈ items) :
    Denoted item := by
  obtain ⟨value, h⟩ := h
  cases h with
  | emptyArray h => cases hitem
  | array hspaced hvalue =>
    obtain ⟨p, hp, rfl⟩ := List.mem_map.mp hitem
    exact ⟨p.value, hvalue p hp⟩

theorem member {members : List (List Symbol × Node)} (h : Denoted (.object members))
    {m : List Symbol × Node} (hm : m ∈ members) : IsLiteral m.1 ∧ Denoted m.2 := by
  obtain ⟨value, h⟩ := h
  cases h with
  | emptyObject h => cases hm
  | object hspaced hvalue =>
    obtain ⟨e, he, rfl⟩ := List.mem_map.mp hm
    exact ⟨(hspaced e he).name, e.piece.value, hvalue e he⟩

end Denoted

/-- The value of a document is denoted. -/
theorem Document.denoted {s : List Symbol} {node : Node} (h : Document s node) :
    Denoted node := by
  obtain ⟨p, -, hvalue, -, rfl⟩ := h
  exact ⟨p.value, hvalue⟩

/-! ### Records -/

/-- Everything succeeds, with the results in order. -/
theorem mapM_eq_some_iff {α β : Type} {f : α → Option β} {xs : List α} {ys : List β} :
    xs.mapM f = some ys ↔ List.Forall₂ (fun x y => f x = some y) xs ys := by
  induction xs generalizing ys with
  | nil => simp [eq_comm]
  | cons x xs ih =>
    simp only [List.mapM_cons, Option.bind_eq_bind, Option.bind_eq_some_iff, Option.pure_def,
      Option.some.injEq, List.forall₂_cons_left_iff, ih]
    constructor
    · rintro ⟨y, hy, ys, hys, rfl⟩
      exact ⟨y, ys, hy, hys, rfl⟩
    · rintro ⟨y, ys, hy, hys, rfl⟩
      exact ⟨y, hy, ys, hys, rfl⟩

/-- The members of an object with the texts of their names. -/
def Named (members : List (List Symbol × Node)) (named : List (List Char × Node)) : Prop :=
  List.Forall₂ (fun m n => Means m.1 n.1 ∧ m.2 = n.2) members named

theorem named?_eq_some_iff {members : List (List Symbol × Node)} (h : Denoted (.object members))
    {named : List (List Char × Node)} : named? members = some named ↔ Named members named := by
  have hliteral : ∀ m ∈ members, IsLiteral m.1 := fun m hm => (h.member hm).1
  rw [named?, mapM_eq_some_iff]
  constructor <;> intro hnamed
  · refine ((List.forall₂_and_left _ _).mpr ⟨hliteral, hnamed⟩).imp ?_
    intro m n ⟨hm, hn⟩
    obtain ⟨name, hname, rfl⟩ := Option.map_eq_some_iff.mp hn
    exact ⟨means_of_text? hm hname, rfl⟩
  · refine hnamed.imp ?_
    rintro m n ⟨hname, hnode⟩
    rw [hname.text?_eq, hnode]
    rfl

/-- The only member of a name, or none if no member has it. -/
inductive Sole (name : List Char) (members : List (List Char × Node)) : Option Node → Prop where
  | absent (h : name ∉ members.map Prod.fst) : Sole name members none
  | present (before after : List (List Char × Node)) {node : Node}
    (hmembers : members = before ++ (name, node) :: after) (hbefore : name ∉ before.map Prod.fst)
    (hafter : name ∉ after.map Prod.fst) : Sole name members (some node)

theorem filter_eq_nil_iff_not_mem {name : List Char} {members : List (List Char × Node)} :
    members.filter (·.1 = name) = [] ↔ name ∉ members.map Prod.fst := by
  rw [List.filter_eq_nil_iff, List.mem_map]
  simp only [decide_eq_true_eq, not_exists, not_and]

/-- A name is found alone or not at all if and only if it does not come twice. -/
theorem only?_eq_some_iff {name : List Char} {members : List (List Char × Node)}
    {part : Option Node} : only? name members = some part ↔ Sole name members part := by
  constructor
  · intro h
    rw [only?] at h
    split at h
    · rename_i hfilter
      obtain rfl := Option.some.inj h
      exact .absent (filter_eq_nil_iff_not_mem.mp hfilter)
    · rename_i m hfilter
      obtain rfl := Option.some.inj h
      obtain ⟨before, after, rfl, hbefore, hm, hafter⟩ := List.filter_eq_cons_iff.mp hfilter
      obtain rfl : m.1 = name := by simpa using hm
      refine Sole.present before after rfl ?_
        (filter_eq_nil_iff_not_mem.mp hafter)
      exact filter_eq_nil_iff_not_mem.mp (List.filter_eq_nil_iff.mpr hbefore)
    · cases h
  · rintro (h | ⟨before, after, rfl, hbefore, hafter⟩)
    · rw [only?, filter_eq_nil_iff_not_mem.mpr h]
    · rw [only?, List.filter_append, filter_eq_nil_iff_not_mem.mpr hbefore,
        List.filter_cons_of_pos (by simp), filter_eq_nil_iff_not_mem.mpr hafter]
      rfl

namespace Sole

variable {name : List Char} {members : List (List Char × Node)} {part : Option Node} {node : Node}

theorem mem (h : Sole name members (some node)) : (name, node) ∈ members := by
  cases h with
  | present before after hmembers => simp [hmembers]

/-- A member whose name comes once is the only one of its name. -/
theorem of_mem (hmem : (name, node) ∈ members) (hcount : (members.map Prod.fst).count name ≤ 1) :
    Sole name members (some node) := by
  obtain ⟨before, after, rfl⟩ := List.append_of_mem hmem
  rw [List.map_append, List.map_cons, List.count_append, List.count_cons_self] at hcount
  exact .present before after rfl (List.count_eq_zero.mp (by omega)) (List.count_eq_zero.mp (by omega))

/-- No name of a part comes twice. -/
theorem count_le_one (h : Sole name members part) : (members.map Prod.fst).count name ≤ 1 := by
  cases h with
  | absent h =>
    rw [List.count_eq_zero.mpr h]
    exact Nat.zero_le 1
  | present before after hmembers hbefore hafter =>
    rw [hmembers, List.map_append, List.map_cons, List.count_append, List.count_cons_self,
      List.count_eq_zero.mpr hbefore, List.count_eq_zero.mpr hafter]

/-- The only member of a name is every member of that name. -/
theorem eq_some (h : Sole name members part) (hmem : (name, node) ∈ members) :
    part = some node := by
  cases h with
  | absent h => exact absurd (List.mem_map_of_mem hmem) h
  | present before after hmembers hbefore hafter =>
    rw [hmembers] at hmem
    rcases List.mem_append.mp hmem with hmem | hmem
    · exact absurd (List.mem_map_of_mem hmem) hbefore
    rcases List.mem_cons.mp hmem with heq | hmem
    · rw [(Prod.mk.inj heq).2]
    · exact absurd (List.mem_map_of_mem hmem) hafter

end Sole

/-- The parts of a record: of an object under their names, of an array in their order. An array may
end early. -/
inductive Parts (names : List String) : Node → List (Option Node) → Prop where
  | object {members : List (List Symbol × Node)} {named : List (List Char × Node)}
    {parts : List (Option Node)} (hnamed : Named members named)
    (hparts : List.Forall₂ (fun name part => Sole name.toList named part) names parts) :
    Parts names (.object members) parts
  | array {items : List Node} (missing : Nat) (h : items.length + missing = names.length) :
    Parts names (.array items) (items.map some ++ List.replicate missing none)

/-- **What is read as a record has these parts, each at most once.** -/
theorem record?_eq_some_iff {names : List String} {node : Node} (h : Denoted node)
    {parts : List (Option Node)} : record? names node = some parts ↔ Parts names node parts := by
  constructor
  · intro hrecord
    unfold record? at hrecord
    split at hrecord
    · obtain ⟨named, hnamed, hparts⟩ := Option.bind_eq_some_iff.mp hrecord
      refine .object ((named?_eq_some_iff h).mp hnamed) ?_
      exact (mapM_eq_some_iff.mp hparts).imp fun _ _ => only?_eq_some_iff.mp
    · split at hrecord
      · obtain rfl := Option.some.inj hrecord
        exact .array _ (by omega)
      · cases hrecord
    · cases hrecord
  · intro hparts
    cases hparts with
    | object hnamed hparts =>
      rw [record?, (named?_eq_some_iff h).mpr hnamed, Option.bind_some, mapM_eq_some_iff]
      exact hparts.imp fun _ _ => only?_eq_some_iff.mpr
    | array missing hlength =>
      rw [record?, if_pos (by omega)]
      congr 3
      omega

theorem Named.exists_mem {members : List (List Symbol × Node)} {named : List (List Char × Node)}
    (h : Named members named) {n : List Char × Node} (hn : n ∈ named) :
    ∃ m ∈ members, Means m.1 n.1 ∧ m.2 = n.2 := by
  induction h with
  | nil => cases hn
  | cons hm _ ih =>
    rcases List.mem_cons.mp hn with rfl | hn
    · exact ⟨_, List.mem_cons_self, hm⟩
    · obtain ⟨m, hmem, hm⟩ := ih hn
      exact ⟨m, List.mem_cons_of_mem _ hmem, hm⟩

/-- The values under the names of a denoted object are denoted. -/
theorem Named.denoted {members : List (List Symbol × Node)} (h : Denoted (.object members))
    {named : List (List Char × Node)} (hnamed : Named members named) {n : List Char × Node}
    (hn : n ∈ named) : Denoted n.2 := by
  obtain ⟨m, hm, -, hnode⟩ := hnamed.exists_mem hn
  exact hnode ▸ (h.member hm).2

/-- The parts of a denoted value are denoted. -/
theorem Parts.denoted {names : List String} {node : Node} (h : Denoted node)
    {parts : List (Option Node)} (hparts : Parts names node parts) {part : Node}
    (hpart : some part ∈ parts) : Denoted part := by
  cases hparts with
  | object hnamed hparts =>
    obtain ⟨i, hi, heq⟩ := List.getElem_of_mem hpart
    have hsole := hparts.get (hparts.length_eq ▸ hi) hi
    rw [List.get_eq_getElem, List.get_eq_getElem, heq] at hsole
    exact hnamed.denoted h hsole.mem
  | array missing hlength =>
    rcases List.mem_append.mp hpart with hpart | hpart
    · obtain ⟨item, hitem, heq⟩ := List.mem_map.mp hpart
      exact Option.some.inj heq ▸ h.item hitem
    · cases List.eq_of_mem_replicate hpart

/-- The text of a string, as a part of a value. -/
theorem Node.text?_eq_some_iff {node : Node} (h : Denoted node) {text : String} :
    node.text? = some text ↔ ∃ l, node = .string l ∧ Means l text.toList := by
  cases node with
  | string l =>
    simp only [Node.text?, Option.map_eq_some_iff, Json.text?_eq_some_iff h.literal,
      Node.string.injEq, exists_eq_left']
    constructor
    · rintro ⟨t, ht, rfl⟩
      rwa [String.toList_ofList]
    · exact fun ht => ⟨_, ht, String.ofList_toList⟩
  | _ => simp [Node.text?]

/-- The truth value, as a part of a value. -/
theorem Node.bool?_eq_some_iff {node : Node} {value : Bool} :
    node.bool? = some value ↔ node = .bool value := by
  cases node <;> simp [Node.bool?]

/-! ### Natural numbers -/

/-- Digits are read as their value to the base of ten. -/
theorem digits?_eq_some_iff {l : List Char} {n : Nat} :
    digits? l = some n ↔ IsDigits l ∧ Nat.ofDigitChars 10 l 0 = n := by
  have hvalue : l.foldl (fun acc c => acc * 10 + (c.toNat - 48)) 0 = Nat.ofDigitChars 10 l 0 := by
    simp only [Nat.ofDigitChars, Nat.mul_comm 10]
    rfl
  simp [digits?, hvalue, IsDigits, and_comm]

theorem digitChar_of_isDigit {c : Char} (h : c.isDigit = true) :
    c.toNat - '0'.toNat < 10 ∧ Nat.digitChar (c.toNat - '0'.toNat) = c := by
  have key : ∀ d : Fin 10, Nat.digitChar d.val = Char.ofNat (48 + d.val) := by decide
  have hbounds : 48 ≤ c.toNat ∧ c.toNat ≤ 57 := Char.isDigit_iff_toNat.mp h
  have hzero : '0'.toNat = 48 := rfl
  have hlt : c.toNat - '0'.toNat < 10 := by omega
  refine ⟨hlt, ?_⟩
  rw [key ⟨_, hlt⟩]
  simp only
  rw [show 48 + (c.toNat - '0'.toNat) = c.toNat by omega, Char.ofNat_toNat]

/-- Digits without a needless zero are those of their value. -/
theorem toDigits_ofDigitChars {ds : List Char} (hdigits : IsDigits ds)
    (hzero : ds.head? = some '0' → ds = ['0']) :
    Nat.toDigits 10 (Nat.ofDigitChars 10 ds 0) = ds := by
  obtain ⟨hne, hall⟩ := hdigits
  -- from the last digit, which is the first that the notation of the value has to give back
  induction ds using List.reverseRecOn with
  | nil => exact absurd rfl hne
  | append_singleton ds c ih =>
    obtain ⟨hlt, hchar⟩ := digitChar_of_isDigit (hall c (by simp))
    rw [Nat.ofDigitChars_append, Nat.ofDigitChars_cons, Nat.ofDigitChars_nil]
    generalize c.toNat - '0'.toNat = d at hlt hchar
    cases ds with
    | nil =>
      rw [Nat.ofDigitChars_nil, Nat.toDigits_of_lt_base (by omega), List.nil_append]
      simp [hchar]
    | cons first more =>
      have hfirst : first ≠ '0' := by
        rintro rfl
        simpa using hzero rfl
      have ih := ih (fun h => absurd (Option.some.inj h) hfirst) (by simp)
        fun c hc => hall c (List.mem_append_left _ hc)
      generalize Nat.ofDigitChars 10 (first :: more) 0 = n at ih
      have hn : n ≠ 0 := by
        rintro rfl
        exact hfirst (List.cons.inj ih).1.symm
      rw [Nat.toDigits_of_base_le (by decide) (by omega)]
      rw [show (10 * n + d) / 10 = n by omega, show (10 * n + d) % 10 = d by omega, ih, hchar]

/-- A number in digits alone is the decimal notation of its value. -/
theorem IsNumber.eq_toDigits {l : List Char} (h : IsNumber l) (hdigits : IsDigits l) :
    l = Nat.toDigits 10 (Nat.ofDigitChars 10 l 0) := by
  cases h with
  | negative => exact absurd (hdigits.2 '-' List.mem_cons_self) nofun
  | unsigned h =>
    obtain ⟨hwhole, hzero, hfraction, hexponent⟩ := h
    cases hfraction with
    | point => exact absurd (hdigits.2 '.' (by simp)) nofun
    | absent =>
      cases hexponent with
      | power he =>
        have := hdigits.2 _ (List.mem_append_right _ List.mem_cons_self)
        rcases he with rfl | rfl <;> cases this
      | absent =>
        simp only [List.append_nil]
        exact (toDigits_ofDigitChars hwhole hzero).symm

/-- **A value is a number of 64 bits if and only if it is written as its decimal digits.** -/
theorem Node.word?_eq_some_iff {node : Node} (h : Denoted node) {n : UInt64} :
    node.word? = some n ↔ node = .number (Nat.toDigits 10 n.toNat) := by
  cases node with
  | number l =>
    simp only [Node.word?, Option.bind_eq_some_iff, digits?_eq_some_iff, Node.number.injEq]
    constructor
    · rintro ⟨_, ⟨hdigits, rfl⟩, hn⟩
      split at hn
      · rename_i hlt
        obtain rfl := Option.some.inj hn
        rw [UInt64.toNat_ofNat_of_lt' hlt]
        exact h.number.eq_toDigits hdigits
      · cases hn
    · rintro rfl
      refine ⟨n.toNat, ⟨⟨Nat.toDigits_ne_nil, fun c hc => ?_⟩, ?_⟩, ?_⟩
      · exact Nat.isDigit_of_mem_toDigits (by decide) (by decide) hc
      · exact Nat.ofDigitChars_ten_toDigits
      · rw [if_pos n.toNat_lt, UInt64.ofNat_toNat]
  | _ => simp [Node.word?]

/-! ### Values that can be read to their end -/

/-- A value can be read to its end with so much depth left. -/
inductive Readable : Nat → Node → Prop where
  | null {depth : Nat} : Readable depth .null
  | bool {depth : Nat} {value : Bool} : Readable depth (.bool value)
  | number {depth : Nat} {l : List Char} (h : fits l = true) : Readable depth (.number l)
  | string {depth : Nat} {l : List Symbol} {t : List Char} (h : Means l t) :
    Readable depth (.string l)
  | array {depth : Nat} {items : List Node} (h : ∀ item ∈ items, Readable depth item) :
    Readable (depth + 1) (.array items)
  | object {depth : Nat} {members : List (List Symbol × Node)}
    (hname : ∀ m ∈ members, ∃ t, Means m.1 t) (h : ∀ m ∈ members, Readable depth m.2) :
    Readable (depth + 1) (.object members)

theorem isSome_text?_iff {l : List Symbol} (hl : IsLiteral l) :
    (text? l).isSome = true ↔ ∃ t, Means l t := by
  simp only [Option.isSome_iff_exists, text?_eq_some_iff hl]

/-- **What can be read to its end.** -/
theorem isReadable_iff {depth : Nat} {node : Node} (h : Denoted node) :
    node.isReadable depth = true ↔ Readable depth node := by
  constructor
  · intro hreadable
    fun_induction Node.isReadable depth node with
    | case1 => exact .null
    | case2 => exact .bool
    | case3 => exact .number hreadable
    | case4 _ l =>
      obtain ⟨t, ht⟩ := (isSome_text?_iff h.literal).mp hreadable
      exact .string ht
    | case5 => cases hreadable
    | case6 => cases hreadable
    | case7 depth items ih =>
      exact .array fun item hitem =>
        ih item (h.item hitem) (List.all_eq_true.mp hreadable item hitem)
    | case8 depth members ih =>
      simp only [List.all_eq_true, Bool.and_eq_true] at hreadable
      exact .object (fun m hm => (isSome_text?_iff (h.member hm).1).mp (hreadable m hm).1)
        fun m hm => ih m (h.member hm).2 (hreadable m hm).2
  · intro hreadable
    induction hreadable with
    | null => simp [Node.isReadable]
    | bool => simp [Node.isReadable]
    | number hfits => simp [Node.isReadable, hfits]
    | string ht => simp [Node.isReadable, ht.text?_eq]
    | array _ ih =>
      rw [Node.isReadable, List.all_eq_true]
      exact fun item hitem => ih item hitem (h.item hitem)
    | object hname _ ih =>
      rw [Node.isReadable, List.all_eq_true]
      intro m hm
      rw [Bool.and_eq_true]
      exact ⟨(isSome_text?_iff (h.member hm).1).mpr (hname m hm), ih m hm (h.member hm).2⟩

end VaultTokens.Json

namespace VaultTokens

open Json

/-! ### Documents in replies -/

theorem Http.isSuccess_iff {status : Nat} :
    Http.isSuccess status = true ↔ 200 ≤ status ∧ status < 300 := by
  simp [Http.isSuccess]

/-- A body is read as a document if and only if it arrives to its end and is that document. -/
theorem Http.document?_eq_some_iff {body : Option (List UInt8)} {node : Node} :
    Http.document? body = some node ↔
      ∃ bytes, body = some bytes ∧ Document (Text.Utf8.decode bytes) node := by
  simp only [Http.document?, Option.bind_eq_some_iff, parse?_eq_some_iff]

theorem Http.denoted_of_document? {body : Option (List UInt8)} {node : Node}
    (h : Http.document? body = some node) : Denoted node := by
  obtain ⟨bytes, -, hdocument⟩ := Http.document?_eq_some_iff.mp h
  exact hdocument.denoted

namespace Reply

/-- A reply carries a document: its status means success, and its body arrives to its end and is
the document. -/
def Carries (reply : Reply) (node : Node) : Prop :=
  ∃ status bytes, reply = .response status (some bytes) ∧ 200 ≤ status ∧ status < 300 ∧
    Document (Text.Utf8.decode bytes) node

variable {status : Nat} {body : Option (List UInt8)} {node : Node}

/-- A reply of success carries the document that its body is read as. -/
theorem carries_response_iff (hstatus : Http.isSuccess status = true) :
    (response status body).Carries node ↔ Http.document? body = some node := by
  rw [Http.document?_eq_some_iff]
  constructor
  · rintro ⟨_, bytes, heq, -, -, hdocument⟩
    cases heq
    exact ⟨bytes, rfl, hdocument⟩
  · rintro ⟨bytes, rfl, hdocument⟩
    obtain ⟨hlow, hhigh⟩ := Http.isSuccess_iff.mp hstatus
    exact ⟨status, bytes, rfl, hlow, hhigh, hdocument⟩

theorem not_carries_lost : ¬ Carries .lost node := by
  rintro ⟨_, _, heq, -⟩
  cases heq

theorem not_carries_response (hstatus : Http.isSuccess status = false) :
    ¬ (response status body).Carries node := by
  rintro ⟨_, _, heq, hlow, hhigh, -⟩
  cases heq
  rw [Http.isSuccess_iff.mpr ⟨hlow, hhigh⟩] at hstatus
  cases hstatus

end Reply

end VaultTokens
