import Mathlib.Algebra.Group.Nat.Defs
import VaultTokens.Url.Host

/-!
# Hosts that were read are read again

A host can be written in many ways and is printed in one. An address of four bytes is printed as
four decimal numbers, although one number alone would do; an address of eight groups leaves out its
longest run of zeros; a name is printed in lower case and without escapes. What is printed is again
the text of a host, and of the same one.

A host that was read is in a form that printing relies on: the bytes of an address fit, it has
eight groups, and a name holds admitted characters in lower case. `Host.IsCanonical` says so. It is
what reading yields and all that reading again needs.

## Main results

* `Ipv4.parse?_render`, `Ipv6.parse?_render` — the text of an address is read as that address
* `Host.isCanonical_of_ofChars?` — what is read is canonical
* `Host.ofChars?_render` — a canonical host is read from its text
-/

namespace VaultTokens.Url

/-! ### Text without escapes -/

/-- What holds of all characters of a text is decided along the text, and not by going through
all characters there are. -/
scoped instance decidableForallMem (s : List Char) (P : Char → Prop) [DecidablePred P] :
    Decidable (∀ c ∈ s, P c) :=
  List.decidableBAll P s

namespace Percent

variable {set : Char → Bool} {s : List Char}

/-- Text that is left as it is where it is encoded for a set. -/
def IsPlain (set : Char → Bool) (s : List Char) : Prop :=
  ∀ c ∈ s, c.toNat < 0x80 ∧ set c = false

theorem encode_of_isPlain (h : IsPlain set s) : encode set s = s := by
  induction s with
  | nil => rfl
  | cons c s ih =>
    obtain ⟨hascii, hset⟩ := h c List.mem_cons_self
    have hc : encodeChar set c = [c] := by
      rw [encodeChar, hset, Bool.or_false, if_neg]
      simpa using hascii
    rw [encode, List.flatMap_cons, ← encode, hc, ih fun x hx => h x (List.mem_cons_of_mem _ hx)]
    rfl

/-- Text of ASCII without percent signs stands for its own bytes. -/
theorem decode_of_isPlain (hset : set '%' = true) (h : IsPlain set s) :
    decode s = Text.Utf8.encode s := by
  rw [← decode_encode hset s, encode_of_isPlain h]

end Percent

/-! ### Addresses of four bytes -/

namespace Ipv4

/-- The bytes of an address, the highest first. -/
def bytes (address : Nat) : List Nat :=
  [address / 16777216 % 256, address / 65536 % 256, address / 256 % 256, address % 256]

theorem lt_of_mem_bytes {address b : Nat} (h : b ∈ bytes address) : b < 256 := by
  simp only [bytes, List.mem_cons, List.not_mem_nil, or_false] at h
  omega

theorem toList_render (address : Nat) :
    (render address).toList = ['.'].intercalate ((bytes address).map (Nat.toDigits 10)) := by
  have hdigits : (fun n : Nat => (toString n).toList) = Nat.toDigits 10 := by
    funext n
    rw [Nat.toString_eq_ofList_toDigits, String.toList_ofList]
  rw [render, String.toList_intercalate, List.map_map]
  exact congrArg (fun f => ['.'].intercalate ((bytes address).map f)) hdigits

theorem not_mem_toDigits {b : Nat} {c : Char} (hc : c.isDigit = false) : c ∉ Nat.toDigits 10 b := by
  intro h
  rw [Nat.isDigit_of_mem_toDigits (by decide) (by decide) h] at hc
  cases hc

theorem splitOn_render (address : Nat) :
    (render address).toList.splitOn '.' = (bytes address).map (Nat.toDigits 10) := by
  rw [toList_render]
  refine List.splitOn_intercalate '.' ?_ (by simp [bytes])
  intro l hl
  obtain ⟨b, -, rfl⟩ := List.mem_map.mp hl
  exact not_mem_toDigits rfl

/-- The labels of an address as text are the decimal numbers of its bytes. -/
theorem labels_render (address : Nat) :
    labels (render address).toList = (bytes address).map (Nat.toDigits 10) := by
  have hlast : ((bytes address).map (Nat.toDigits 10)).getLast? ≠ some [] := by
    simp [bytes, Nat.toDigits_ne_nil]
  rw [labels, splitOn_render]
  exact if_neg hlast

/-- A byte in decimal digits is read as that byte, never as an octal number. -/
theorem number?_toDigits {b : Nat} (hb : b < 256) : number? (Nat.toDigits 10 b) = some b := by
  have hall : ∀ n : Fin 256, number? (Nat.toDigits 10 n.val) = some n.val := by decide +kernel
  exact hall ⟨b, hb⟩

/-- **The text of an address is read as that address.** -/
theorem parse?_render {address : Nat} (h : address < 4294967296) :
    parse? (render address).toList = some address := by
  have hnumbers : ((bytes address).map (Nat.toDigits 10)).mapM number? = some (bytes address) := by
    have hnumber : ∀ b ∈ bytes address, number? (Nat.toDigits 10 b) = some b :=
      fun b hb => number?_toDigits (lt_of_mem_bytes hb)
    simp [bytes] at hnumber ⊢
    simp [hnumber]
  have hcombine : combine (bytes address).dropLast (address % 256) = some address := by
    have hbytes : (bytes address).dropLast.all (· ≤ 255) = true := by
      simp [bytes]
      omega
    rw [combine, if_pos ⟨by simp [bytes], hbytes, by simp [bytes, roomBehind]; omega⟩]
    simp only [bytes, List.dropLast_cons_cons, List.dropLast_singleton, List.foldl_cons,
      List.foldl_nil, List.length_cons, List.length_nil, roomBehind, Option.some.injEq]
    omega
  rw [parse?, labels_render, hnumbers]
  exact hcombine

theorem endsInNumber_render (address : Nat) : endsInNumber (render address).toList = true := by
  have hnumber : number? (Nat.toDigits 10 (address % 256)) = some (address % 256) :=
    number?_toDigits (Nat.mod_lt _ (by decide))
  rw [endsInNumber, labels_render]
  simp [bytes, hnumber]

/-- At most three bytes come first, and the last number has the room that they leave. -/
theorem lt_of_combine {leading : List Nat} {last address : Nat}
    (h : combine leading last = some address) : address < 4294967296 := by
  have heq := eq_of_combine h
  rw [combine] at h
  split at h
  · rename_i hfit
    obtain ⟨hlength, hbytes, hlast⟩ := hfit
    rw [List.all_eq_true] at hbytes
    rcases leading with _ | ⟨a, _ | ⟨b, _ | ⟨c, _ | ⟨d, rest⟩⟩⟩⟩ <;>
      simp [roomBehind] at heq hlength hbytes hlast <;> omega
  · cases h

/-- An address that is read has four bytes. -/
theorem lt_of_parse? {host : List Char} {address : Nat} (h : parse? host = some address) :
    address < 4294967296 := by
  obtain ⟨numbers, -, hlast⟩ := Option.bind_eq_some_iff.mp h
  obtain ⟨last, -, hcombine⟩ := Option.bind_eq_some_iff.mp hlast
  exact lt_of_combine hcombine

end Ipv4

/-! ### Addresses of eight groups -/

namespace Ipv6

variable {p : Progress} {g : Nat} {gs front : List Nat} {rest : List Char}

/-- The value of hexadecimal digits behind a number. -/
def valueBehind (acc : Nat) (digits : List Char) : Nat :=
  digits.foldl (fun n c => n * 16 + (hexValue? c).getD 0) acc

theorem hexValue?_digitChar {n : Nat} (h : n < 16) : hexValue? n.digitChar = some n := by
  have hall : ∀ m : Fin 16, hexValue? m.val.digitChar = some m.val := by decide
  exact hall ⟨n, h⟩

theorem isSome_hexValue?_of_mem {c : Char} (h : c ∈ Nat.toDigits 16 g) :
    (hexValue? c).isSome = true := by
  induction g using Nat.strongRecOn with
  | ind g ih =>
    rw [Nat.toDigits_eq_if (by decide)] at h
    split at h
    · rename_i hlt
      rw [List.mem_singleton.mp h, hexValue?_digitChar hlt]
      rfl
    · rcases List.mem_append.mp h with h | h
      · exact ih (g / 16) (by omega) h
      · rw [List.mem_singleton.mp h, hexValue?_digitChar (Nat.mod_lt g (by decide))]
        rfl

/-- The digits of a number have that number as their value. -/
theorem valueBehind_toDigits (g : Nat) : valueBehind 0 (Nat.toDigits 16 g) = g := by
  induction g using Nat.strongRecOn with
  | ind g ih =>
    rw [Nat.toDigits_eq_if (by decide)]
    split
    · rename_i hlt
      simp [valueBehind, hexValue?_digitChar hlt]
    · have hfront := ih (g / 16) (by omega)
      rw [valueBehind] at hfront
      rw [valueBehind, List.foldl_append, hfront, List.foldl_cons, List.foldl_nil,
        hexValue?_digitChar (Nat.mod_lt g (by decide)), Option.getD_some]
      omega

/-- A group ends where its digits do, if there is room for them. -/
theorem group_append {digits : List Char} (hdigits : ∀ c ∈ digits, (hexValue? c).isSome = true)
    (hrest : ∀ c ∈ rest.head?, hexValue? c = none) {most : Nat} (hmost : digits.length ≤ most)
    (count acc : Nat) :
    group most count acc (digits ++ rest)
      = (count + digits.length, valueBehind acc digits, rest) := by
  induction digits generalizing most count acc with
  | nil =>
    cases rest with
    | nil => simp [group, valueBehind]
    | cons c rest =>
      have hc := hrest c rfl
      cases most <;> simp [group, hc, valueBehind]
  | cons c digits ih =>
    obtain ⟨d, hd⟩ := Option.isSome_iff_exists.mp (hdigits c List.mem_cons_self)
    obtain ⟨most, rfl⟩ : ∃ m, most = m + 1 := ⟨most - 1, by simp at hmost; omega⟩
    rw [List.cons_append, group, hd]
    simp only
    rw [ih (fun x hx => hdigits x (List.mem_cons_of_mem _ hx)) (by simpa using hmost)]
    simp [valueBehind, hd]
    omega

/-- A printed group is read up to what ends it. -/
theorem group_toDigits (hg : g < 65536) (rest : List Char)
    (hrest : ∀ c ∈ rest.head?, hexValue? c = none) :
    ∃ n, group 4 0 0 (Nat.toDigits 16 g ++ rest) = (n + 1, g, rest) := by
  have hlength : (Nat.toDigits 16 g).length ≤ 4 :=
    (Nat.length_toDigits_le_iff (by decide) (by decide)).mpr hg
  have hpos : 0 < (Nat.toDigits 16 g).length := Nat.length_toDigits_pos
  refine ⟨(Nat.toDigits 16 g).length - 1, ?_⟩
  rw [group_append (fun c => isSome_hexValue?_of_mem) hrest hlength, valueBehind_toDigits]
  congr 1
  omega

/-- The first character of a printed group is a digit. -/
theorem toDigits_eq_cons (g : Nat) :
    ∃ c digits, Nat.toDigits 16 g = c :: digits ∧ c ≠ ':' ∧ c ≠ ']' := by
  obtain ⟨c, digits, hdigits⟩ := List.exists_cons_of_ne_nil (Nat.toDigits_ne_nil (n := g) (b := 16))
  have hc : (hexValue? c).isSome = true :=
    isSome_hexValue?_of_mem (g := g) (by rw [hdigits]; exact List.mem_cons_self)
  refine ⟨c, digits, hdigits, ?_, ?_⟩ <;> rintro rfl <;> cases hc

/-- The last group of a text. -/
theorem groups_last (hp : p.taken < 8) (hg : g < 65536) :
    groups p (Nat.toDigits 16 g) = some (p.push g) := by
  obtain ⟨c, digits, hdigits, hc, -⟩ := toDigits_eq_cons g
  obtain ⟨n, hgroup⟩ := group_toDigits hg [] (by simp)
  rw [List.append_nil, hdigits] at hgroup
  rw [hdigits, groups, if_neg (by omega), if_neg hc]
  split <;> simp_all

/-- A group before others. -/
theorem groups_next {d : Char} (hp : p.taken < 8) (hg : g < 65536) :
    groups p (Nat.toDigits 16 g ++ ':' :: d :: rest) = groups (p.push g) (d :: rest) := by
  obtain ⟨c, digits, hdigits, hc, -⟩ := toDigits_eq_cons g
  obtain ⟨n, hgroup⟩ := group_toDigits hg (':' :: d :: rest) (by
    rintro _ ⟨⟩
    rfl)
  rw [hdigits, List.cons_append] at hgroup
  rw [hdigits, List.cons_append, groups, if_neg (by omega), if_neg hc]
  split <;> simp_all

theorem taken_push (p : Progress) (g : Nat) : (p.push g).taken = p.taken + 1 := by
  obtain ⟨front, back⟩ := p
  cases back <;> simp [Progress.push, Progress.taken] <;> omega

theorem toList_colons (gs : List Nat) :
    (colons gs).toList = [':'].intercalate (gs.map (Nat.toDigits 16)) := by
  have hdigits : (fun g => (String.ofList (Nat.toDigits 16 g)).toList) = Nat.toDigits 16 := by
    funext g
    rw [String.toList_ofList]
  rw [colons, String.toList_intercalate, List.map_map]
  exact congrArg (fun f => [':'].intercalate (gs.map f)) hdigits

/-- Groups between colons begin with a digit, as the first of them does. -/
theorem toList_colons_eq_cons (g : Nat) (gs : List Nat) :
    ∃ c more, (colons (g :: gs)).toList = c :: more ∧ c ≠ ':' := by
  obtain ⟨c, digits, hdigits, hc, -⟩ := toDigits_eq_cons g
  rw [toList_colons, List.map_cons, hdigits]
  cases gs with
  | nil => exact ⟨c, digits, List.intercalate_singleton, hc⟩
  | cons next gs =>
    rw [List.map_cons, List.intercalate_cons_cons]
    exact ⟨c, _, rfl, hc⟩

/-- Printed groups are pushed one after the other, up to the end of the text or to the gap. -/
theorem groups_colons (hgs : ∀ g ∈ gs, g < 65536) (hne : gs ≠ [])
    (hp : p.taken + gs.length ≤ 8) (rest : List Char) :
    groups p (colons gs).toList = some (gs.foldl Progress.push p) ∧
      groups p ((colons gs).toList ++ ':' :: ':' :: rest)
        = groups (gs.foldl Progress.push p) (':' :: rest) := by
  induction gs generalizing p with
  | nil => exact absurd rfl hne
  | cons g gs ih =>
    have hg := hgs g List.mem_cons_self
    rw [List.length_cons] at hp
    rw [toList_colons, List.map_cons, List.foldl_cons]
    cases gs with
    | nil =>
      rw [List.map_nil, List.intercalate_singleton, List.foldl_nil]
      exact ⟨groups_last (by omega) hg, groups_next (by omega) hg⟩
    | cons next gs =>
      obtain ⟨c, more, hmore, -⟩ := toList_colons_eq_cons next gs
      have hrest := ih (p := p.push g) (fun x hx => hgs x (List.mem_cons_of_mem _ hx)) (by simp)
        (by rw [taken_push]; omega)
      rw [List.map_cons, List.intercalate_cons_cons, ← List.map_cons, ← toList_colons, hmore,
        List.append_assoc, List.append_assoc]
      rw [hmore] at hrest
      exact ⟨(groups_next (by omega) hg).trans hrest.1, (groups_next (by omega) hg).trans hrest.2⟩

theorem foldl_push_front (gs front : List Nat) :
    gs.foldl Progress.push ⟨front, none⟩ = ⟨front ++ gs, none⟩ := by
  induction gs generalizing front with
  | nil => simp
  | cons g gs ih =>
    rw [List.foldl_cons, Progress.push, ih, List.append_assoc]
    rfl

theorem foldl_push_back (gs front back : List Nat) :
    gs.foldl Progress.push ⟨front, some back⟩ = ⟨front, some (back ++ gs)⟩ := by
  induction gs generalizing back with
  | nil => simp
  | cons g gs ih =>
    rw [List.foldl_cons, Progress.push, ih, List.append_assoc]
    rfl

/-- Groups behind the gap, of which there may be none. -/
theorem groups_behind (hgs : ∀ g ∈ gs, g < 65536) (hlength : front.length + gs.length ≤ 7) :
    groups ⟨front, some []⟩ (colons gs).toList = some ⟨front, some gs⟩ := by
  cases gs with
  | nil =>
    rw [toList_colons, List.map_nil, List.intercalate_nil, groups]
  | cons g gs =>
    have htaken : (⟨front, some []⟩ : Progress).taken + (g :: gs).length ≤ 8 := by
      simp only [Progress.taken, List.length_nil]
      omega
    rw [(groups_colons hgs (by simp) htaken []).1, foldl_push_back, List.nil_append]

/-- Text of at least two characters that does not begin with a colon has no gap at its front. -/
theorem parse?_cons_cons {c d : Char} (hc : c ≠ ':') :
    parse? (c :: d :: rest) = (groups ⟨[], none⟩ (c :: d :: rest)).bind Progress.groups? := by
  rw [parse?]
  · simp [hc]
  · simp [hc]
  · simp
  · simp

theorem parse?_gap (hfront : ∀ g ∈ front, g < 65536) (hgs : ∀ g ∈ gs, g < 65536)
    (hlength : front.length + gs.length ≤ 7) :
    parse? ((colons front).toList ++ ':' :: ':' :: (colons gs).toList)
      = some (front ++ List.replicate (8 - front.length - gs.length) 0 ++ gs) := by
  have hgroups : (⟨front, some gs⟩ : Progress).groups?
      = some (front ++ List.replicate (8 - front.length - gs.length) 0 ++ gs) := by
    rw [Progress.groups?]
    exact if_pos hlength
  cases front with
  | nil =>
    rw [toList_colons, List.map_nil, List.intercalate_nil, List.nil_append, parse?,
      groups_behind hgs hlength]
    exact hgroups
  | cons g front =>
    obtain ⟨c, more, hmore, hc⟩ := toList_colons_eq_cons g front
    have htaken : (⟨[], none⟩ : Progress).taken + (g :: front).length ≤ 8 := by
      simp only [Progress.taken, List.length_nil]
      omega
    have hread := (groups_colons hfront (by simp) htaken (colons gs).toList).2
    have hcolon : ¬8 ≤ (⟨g :: front, none⟩ : Progress).taken := by
      simp only [Progress.taken]
      omega
    rw [foldl_push_front, List.nil_append, groups, if_neg hcolon, if_pos rfl] at hread
    simp only at hread
    rw [groups_behind hgs hlength] at hread
    obtain ⟨d, tail, htail⟩ : ∃ d tail, more ++ ':' :: ':' :: (colons gs).toList = d :: tail := by
      cases more <;> exact ⟨_, _, rfl⟩
    rw [hmore, List.cons_append, htail] at hread ⊢
    rw [parse?_cons_cons hc, hread]
    exact hgroups

theorem parse?_full (hgs : ∀ g ∈ gs, g < 65536) (hlength : gs.length = 8) :
    parse? (colons gs).toList = some gs := by
  obtain ⟨g, next, more, rfl⟩ : ∃ g next more, gs = g :: next :: more := by
    rcases gs with _ | ⟨g, _ | ⟨next, more⟩⟩
    · cases hlength
    · cases hlength
    · exact ⟨g, next, more, rfl⟩
  have htaken : (⟨[], none⟩ : Progress).taken + (g :: next :: more).length ≤ 8 := by
    simp only [Progress.taken, List.length_nil]
    omega
  have hread := (groups_colons hgs (by simp) htaken []).1
  rw [foldl_push_front, List.nil_append] at hread
  obtain ⟨c, digits, hdigits, hc, -⟩ := toDigits_eq_cons g
  have htext : ∃ d tail, (colons (g :: next :: more)).toList = c :: d :: tail := by
    rw [toList_colons, List.map_cons, List.map_cons, List.intercalate_cons_cons, hdigits]
    cases digits <;> exact ⟨_, _, rfl⟩
  obtain ⟨d, tail, htail⟩ := htext
  rw [htail] at hread ⊢
  rw [parse?_cons_cons hc, hread, Option.bind_some, Progress.groups?]
  exact if_pos hlength

theorem zeroRun_spec (gs : List Nat) :
    zeroRun gs ≤ gs.length ∧ List.replicate (zeroRun gs) 0 ++ gs.drop (zeroRun gs) = gs := by
  have hsplit : gs.takeWhile (· = 0) ++ gs.dropWhile (· = 0) = gs := List.takeWhile_append_dropWhile
  have hzeros : gs.takeWhile (· = 0) = List.replicate (zeroRun gs) 0 := by
    refine List.eq_replicate_iff.mpr ⟨rfl, fun g hg => ?_⟩
    simpa using List.all_eq_true.mp (List.all_takeWhile (l := gs)) g hg
  have hdrop : gs.drop (zeroRun gs) = gs.dropWhile (· = 0) := by
    calc gs.drop (zeroRun gs)
        = (gs.takeWhile (· = 0) ++ gs.dropWhile (· = 0)).drop (zeroRun gs) := by rw [hsplit]
      _ = gs.dropWhile (· = 0) := List.drop_left
  refine ⟨(List.takeWhile_sublist _).length_le, ?_⟩
  rw [hdrop, ← hzeros, hsplit]

/-- The longest run of zeros is one: taking it out and putting zeros in changes nothing. -/
theorem longestRun_spec (gs : List Nat) :
    (longestRun gs).1 + (longestRun gs).2 ≤ gs.length ∧
      gs.take (longestRun gs).1 ++ List.replicate (longestRun gs).2 0
        ++ gs.drop ((longestRun gs).1 + (longestRun gs).2) = gs := by
  induction gs with
  | nil => exact ⟨Nat.le_refl _, rfl⟩
  | cons g gs ih =>
    obtain ⟨hle, hgs⟩ := ih
    rw [longestRun]
    simp only
    split
    · obtain ⟨hshort, hzeros⟩ := zeroRun_spec (g :: gs)
      rw [List.take_zero, List.nil_append, Nat.zero_add]
      exact ⟨hshort, hzeros⟩
    · refine ⟨?_, ?_⟩
      · rw [List.length_cons]
        omega
      · rw [List.take_succ_cons, Nat.add_right_comm, List.drop_succ_cons, List.cons_append,
          List.cons_append, hgs]

/-- **The text of an address is read as that address.** -/
theorem parse?_render (hlength : gs.length = 8) (hgs : ∀ g ∈ gs, g < 65536) :
    parse? (render gs).toList = some gs := by
  obtain ⟨hle, hrun⟩ := longestRun_spec gs
  rw [render]
  simp only
  split
  · rename_i hlong
    generalize (longestRun gs).1 = start, (longestRun gs).2 = length at hle hrun hlong
    have hback : (gs.drop (start + length)).length = 8 - start - length := by
      rw [List.length_drop]
      omega
    have hfront : (gs.take start).length = start := by
      rw [List.length_take]
      omega
    have hsize : (gs.take start).length + (gs.drop (start + length)).length ≤ 7 := by omega
    have hread := parse?_gap (fun g hg => hgs g (List.mem_of_mem_take hg))
      (fun g hg => hgs g (List.mem_of_mem_drop hg)) hsize
    rw [String.toList_append, String.toList_append, List.append_assoc]
    refine hread.trans ?_
    rw [show 8 - (gs.take start).length - (gs.drop (start + length)).length = length by omega, hrun]
  · exact parse?_full hgs hlength

end Ipv6

/-! ### Groups that were read -/

namespace Ipv6

variable {p q : Progress}

/-- All groups are of sixteen bits. -/
def Progress.Fits (p : Progress) : Prop :=
  (∀ g ∈ p.front, g < 65536) ∧ ∀ back ∈ p.back, ∀ g ∈ back, g < 65536

theorem Progress.Fits.push (h : p.Fits) {g : Nat} (hg : g < 65536) : (p.push g).Fits := by
  obtain ⟨front, back⟩ := p
  obtain ⟨hfront, hback⟩ := h
  cases back with
  | none =>
    refine ⟨fun x hx => ?_, hback⟩
    rcases List.mem_append.mp hx with hx | hx
    · exact hfront x hx
    · rw [List.mem_singleton.mp hx]
      exact hg
  | some b =>
    refine ⟨hfront, ?_⟩
    rintro _ ⟨⟩ x hx
    rcases List.mem_append.mp hx with hx | hx
    · exact hback b rfl x hx
    · rw [List.mem_singleton.mp hx]
      exact hg

theorem hexValue?_lt {c : Char} {d : Nat} (h : hexValue? c = some d) : d < 16 := by
  simp only [hexValue?] at h
  split at h
  · simp at h
    omega
  · split at h
    · simp at h
      omega
    · split at h
      · simp at h
        omega
      · cases h

/-- Each digit multiplies the room for a value by sixteen. -/
theorem group_lt (room most count acc : Nat) (text : List Char) (hacc : acc < room) :
    (group most count acc text).2.1 < room * 16 ^ most := by
  have hroom : ∀ room n : Nat, room ≤ room * 16 ^ n :=
    fun room n => Nat.le_mul_of_pos_right room (Nat.pow_pos (by decide))
  fun_induction group most count acc text generalizing room with
  | case1 => exact Nat.lt_of_lt_of_le hacc (hroom ..)
  | case2 => exact Nat.lt_of_lt_of_le hacc (hroom ..)
  | case3 => exact Nat.lt_of_lt_of_le hacc (hroom ..)
  | case4 count acc c rest most d hd ih =>
    have hdigit := hexValue?_lt hd
    have hnext := ih (room * 16) (by omega)
    rw [Nat.pow_succ', ← Nat.mul_assoc]
    exact hnext

theorem decimalByte?_lt {digits : List Char} {n : Nat} (h : decimalByte? digits = some n) :
    n < 256 := by
  unfold decimalByte? at h
  split at h
  · cases h
  · cases h
  · simp only [Option.ite_none_right_eq_some, Option.some.injEq] at h
    omega

theorem dotted?_lt {text : List Char} {pair : Nat × Nat} (h : dotted? text = some pair) :
    pair.1 < 65536 ∧ pair.2 < 65536 := by
  rw [dotted?] at h
  split at h
  · rename_i a b c d hbytes
    have hbyte : ∀ n, some n ∈ [some a, some b, some c, some d] → n < 256 := by
      intro n hn
      rw [← hbytes] at hn
      obtain ⟨digits, -, hdigits⟩ := List.mem_map.mp hn
      exact decimalByte?_lt hdigits
    have ha := hbyte a (by simp)
    have hb := hbyte b (by simp)
    have hc := hbyte c (by simp)
    have hd := hbyte d (by simp)
    rw [← Option.some.inj h]
    simp only
    omega
  · cases h

/-- Groups that are read have at most four digits, or two bytes each. -/
theorem groups_fits {text : List Char} (hp : p.Fits) (h : groups p text = some q) : q.Fits := by
  have hvalue : ∀ {text more : List Char} {n value : Nat},
      group 4 0 0 text = (n, value, more) → value < 65536 := by
    intro text more n value hgroup
    have hlt := group_lt 1 4 0 0 text (by decide)
    rwa [hgroup] at hlt
  fun_induction groups p text with
  | case1 => exact Option.some.inj h ▸ hp
  | case4 p rest _ _ ih => exact ih ⟨hp.1, by rintro _ ⟨⟩ g ⟨⟩⟩ h
  | case6 p c rest _ _ n value hgroup => exact Option.some.inj h ▸ hp.push (hvalue hgroup)
  | case8 p c rest _ _ n value behind _ hgroup ih => exact ih (hp.push (hvalue hgroup)) h
  | case9 =>
    obtain ⟨pair, hpair, rfl⟩ := Option.map_eq_some_iff.mp h
    obtain ⟨hhigh, hlow⟩ := dotted?_lt hpair
    exact (hp.push hhigh).push hlow
  | case2 | case3 | case5 | case7 | case10 => cases h

theorem Progress.Fits.groups? {gs : List Nat} (hp : p.Fits) (h : p.groups? = some gs) :
    ∀ g ∈ gs, g < 65536 := by
  obtain ⟨front, back⟩ := p
  obtain ⟨hfront, hback⟩ := hp
  unfold Progress.groups? at h
  cases back with
  | none =>
    obtain ⟨-, hgs⟩ := Option.ite_none_right_eq_some.mp h
    exact Option.some.inj hgs ▸ hfront
  | some b =>
    obtain ⟨-, hgs⟩ := Option.ite_none_right_eq_some.mp h
    intro g hg
    rw [← Option.some.inj hgs, List.mem_append, List.mem_append] at hg
    rcases hg with (hg | hg) | hg
    · exact hfront g hg
    · rw [List.eq_of_mem_replicate hg]
      decide
    · exact hback b rfl g hg

/-- An address that is read has eight groups of sixteen bits. -/
theorem fits_of_parse? {text : List Char} {gs : List Nat} (h : parse? text = some gs) :
    gs.length = 8 ∧ ∀ g ∈ gs, g < 65536 := by
  have hstart : ∀ {p : Progress} {text : List Char}, p.Fits →
      (groups p text).bind Progress.groups? = some gs → gs.length = 8 ∧ ∀ g ∈ gs, g < 65536 := by
    intro p text hp hread
    obtain ⟨q, hq, hgs⟩ := Option.bind_eq_some_iff.mp hread
    exact ⟨length_groups? hgs, (groups_fits hp hq).groups? hgs⟩
  have hempty : ∀ back ∈ [none, some []], (⟨[], back⟩ : Progress).Fits := by
    intro back hback
    refine ⟨by simp, ?_⟩
    rintro b rfl g hg
    simp at hback
    simp [hback] at hg
  unfold parse? at h
  split at h
  · exact hstart (hempty _ (by simp)) h
  · cases h
  · cases h
  · cases h
  · exact hstart (hempty _ (by simp)) h

end Ipv6

/-! ### Hosts -/

namespace Host

variable {name : List Char} {h : Host}

/-- A character between marks comes from one of the parts unless it is the mark. -/
theorem mem_intercalate {c mark : Char} {parts : List (List Char)}
    (h : c ∈ [mark].intercalate parts) : c = mark ∨ ∃ part ∈ parts, c ∈ part := by
  induction parts with
  | nil => cases h
  | cons part parts ih =>
    cases parts with
    | nil => exact .inr ⟨part, by simp, by simpa using h⟩
    | cons next parts =>
      rw [List.intercalate_cons_cons, List.append_assoc, List.mem_append, List.mem_append,
        List.mem_singleton] at h
      rcases h with hpart | rfl | hnext
      · exact .inr ⟨part, by simp, hpart⟩
      · exact .inl rfl
      · rcases ih hnext with hmark | ⟨other, hother, hc⟩
        · exact .inl hmark
        · exact .inr ⟨other, List.mem_cons_of_mem _ hother, hc⟩

/-- A name in the form in which it is printed. -/
structure IsName (name : List Char) : Prop where
  /-- There is a character in it. -/
  nonempty : name ≠ []
  /-- Names may hold its characters. -/
  admitted : ∀ c ∈ name, isNameChar c = true
  /-- It is in lower case. -/
  lower : name.map Char.toLower = name
  /-- Its labels stand for texts that can stand beside each other. -/
  legible : isLegible name = true

theorem lt_of_isNameChar {c : Char} (h : isNameChar c = true) : c.toNat < 0x80 := by
  simp only [isNameChar, Bool.and_eq_true, decide_eq_true_eq] at h
  omega

/-- What holds of each character of ASCII is seen by trying them all. -/
theorem of_ascii {P : Char → Prop} (hall : ∀ n : Fin 128, P (Char.ofNat n)) {c : Char}
    (h : c.toNat < 128) : P c := by
  have hc := hall ⟨c.toNat, h⟩
  rwa [Char.ofNat_toNat] at hc

/-- The lower case of an admitted character is admitted, and is in lower case. -/
theorem isNameChar_toLower {c : Char} (h : isNameChar c = true) :
    isNameChar c.toLower = true ∧ c.toLower.toLower = c.toLower :=
  of_ascii (P := fun c => isNameChar c = true →
    isNameChar c.toLower = true ∧ c.toLower.toLower = c.toLower) (by decide +kernel)
    (lt_of_isNameChar h) h

/-- What decoded bytes spell is in the form in which it is printed. -/
theorem isName_of_nameOf? {bytes : List UInt8} (h : nameOf? bytes = some name) : IsName name := by
  obtain ⟨written, hchars, hnonempty, rfl, hlegible⟩ := written_of_nameOf? h
  refine ⟨by simpa using hnonempty, ?_, ?_, hlegible⟩
  · intro c hc
    obtain ⟨w, hw, rfl⟩ := List.mem_map.mp hc
    exact (isNameChar_toLower (hchars w hw)).1
  · rw [List.map_map]
    exact List.map_congr_left fun w hw => (isNameChar_toLower (hchars w hw)).2

/-- A name in the form in which it is printed is read as itself, or as an address if it ends in a
number. -/
theorem ofChars?_of_isName (h : IsName name) :
    ofChars? name =
      if Ipv4.endsInNumber name then (Ipv4.parse? name).map .ipv4
      else some (.name (String.ofList name)) := by
  have hplain : Percent.IsPlain (fun c => !isNameChar c) name := fun c hc =>
    ⟨lt_of_isNameChar (h.admitted c hc), by simp [h.admitted c hc]⟩
  have hname : nameOf? (Percent.decode name) = some name := by
    have hall : (name.all isNameChar && !name.isEmpty && isLegible name) = true := by
      simpa [h.nonempty, h.legible] using h.admitted
    rw [Percent.decode_of_isPlain rfl hplain, nameOf?, Text.Utf8.decodeStrict_encode,
      Option.bind_some, inAscii?_of_ascii fun c hc => lt_of_isNameChar (h.admitted c hc),
      Option.bind_some, h.lower]
    exact if_pos hall
  unfold ofChars?
  split
  · exact absurd rfl h.nonempty
  · cases h.admitted '[' List.mem_cons_self
  · rw [hname, Option.bind_some]

/-- Digits may be held by names, and have no case. -/
theorem isNameChar_of_isDigit {c : Char} (h : c.isDigit = true) :
    isNameChar c = true ∧ c.toLower = c := by
  have hlt : c.toNat < 128 := by
    simp only [Char.isDigit, Bool.and_eq_true, decide_eq_true_eq] at h
    exact Nat.lt_of_le_of_lt h.2 (by decide)
  exact of_ascii (P := fun c => c.isDigit = true → isNameChar c = true ∧ c.toLower = c)
    (by decide +kernel) hlt h

/-- An address of four bytes is printed as a name of digits. -/
theorem isName_render_ipv4 (address : Nat) : IsName (Ipv4.render address).toList := by
  have hdigits : ∀ l ∈ (Ipv4.render address).toList.splitOn '.', ∀ c ∈ l, c.isDigit = true := by
    intro l hl c hc
    rw [Ipv4.splitOn_render] at hl
    obtain ⟨b, -, rfl⟩ := List.mem_map.mp hl
    exact Nat.isDigit_of_mem_toDigits (by decide) (by decide) hc
  have hchar : ∀ c ∈ (Ipv4.render address).toList, isNameChar c = true ∧ c.toLower = c := by
    intro c hc
    have htext : ['.'].intercalate ((Ipv4.render address).toList.splitOn '.')
        = (Ipv4.render address).toList := List.intercalate_splitOn '.'
    rw [← htext] at hc
    rcases mem_intercalate hc with rfl | ⟨l, hl, hmem⟩
    · decide
    · exact isNameChar_of_isDigit (hdigits l hl c hmem)
  refine ⟨fun hnil => ?_, fun c hc => (hchar c hc).1, ?_, isLegible_of_plain ?_ ?_⟩
  · have hend := Ipv4.endsInNumber_render address
    rw [hnil] at hend
    cases hend
  · calc (Ipv4.render address).toList.map Char.toLower
        = (Ipv4.render address).toList.map id := List.map_congr_left fun c hc => (hchar c hc).2
      _ = (Ipv4.render address).toList := List.map_id _
  · intro l hl
    rw [Bool.eq_false_iff]
    intro hmark
    have hx : 'x' ∈ l := (List.isPrefixOf_iff_prefix.mp hmark).mem List.mem_cons_self
    cases hdigits l hl 'x' hx
  · exact fun l hl c hc => lt_of_isNameChar (isNameChar_of_isDigit (hdigits l hl c hc)).1

theorem isNameChar_of_hexValue? {c : Char} (h : (Ipv6.hexValue? c).isSome = true) :
    isNameChar c = true := by
  have hlt : c.toNat < 128 := by
    simp only [Ipv6.hexValue?] at h
    rcases Nat.lt_or_ge c.toNat 128 with hlt | hge
    · exact hlt
    · rw [if_neg (by omega), if_neg (by omega), if_neg (by omega)] at h
      cases h
  exact of_ascii (P := fun c => (Ipv6.hexValue? c).isSome = true → isNameChar c = true)
    (by decide +kernel) hlt h

theorem mem_colons {groups : List Nat} {c : Char} (h : c ∈ (Ipv6.colons groups).toList) :
    c = ':' ∨ (Ipv6.hexValue? c).isSome = true := by
  rw [Ipv6.toList_colons] at h
  rcases mem_intercalate h with hcolon | ⟨part, hpart, hc⟩
  · exact .inl hcolon
  · obtain ⟨g, -, rfl⟩ := List.mem_map.mp hpart
    exact .inr (Ipv6.isSome_hexValue?_of_mem hc)

/-- An address of eight groups is printed in hexadecimal digits and colons. -/
theorem mem_render_ipv6 {groups : List Nat} {c : Char} (h : c ∈ (Ipv6.render groups).toList) :
    c = ':' ∨ (Ipv6.hexValue? c).isSome = true := by
  rw [Ipv6.render] at h
  simp only at h
  split at h
  · rw [String.toList_append, String.toList_append, List.mem_append, List.mem_append] at h
    rcases h with (hfront | hgap) | hback
    · exact mem_colons hfront
    · exact .inl (by simpa using hgap)
    · exact mem_colons hback
  · exact mem_colons h

/-- The form of a host that was read. -/
def IsCanonical : Host → Prop
  | .name text => IsName text.toList ∧ Ipv4.endsInNumber text.toList = false
  | .ipv4 address => address < 4294967296
  | .ipv6 groups => groups.length = 8 ∧ ∀ g ∈ groups, g < 65536

/-- **What is read is canonical.** -/
theorem isCanonical_of_ofChars? {text : List Char} (hread : ofChars? text = some h) :
    h.IsCanonical := by
  unfold ofChars? at hread
  split at hread
  · cases hread
  · obtain ⟨-, hgroups⟩ := Option.ite_none_right_eq_some.mp hread
    obtain ⟨groups, hparse, rfl⟩ := Option.map_eq_some_iff.mp hgroups
    exact Ipv6.fits_of_parse? hparse
  · obtain ⟨name, hname, hkind⟩ := Option.bind_eq_some_iff.mp hread
    split at hkind
    · obtain ⟨address, hparse, rfl⟩ := Option.map_eq_some_iff.mp hkind
      exact Ipv4.lt_of_parse? hparse
    · rename_i hend
      obtain rfl := Option.some.inj hkind
      refine ⟨?_, ?_⟩ <;> rw [String.toList_ofList]
      · exact isName_of_nameOf? hname
      · simpa using hend

/-- **A canonical host is read from its text.** -/
theorem ofChars?_render (hcan : h.IsCanonical) : ofChars? h.render.toList = some h := by
  cases h with
  | name text =>
    obtain ⟨hname, hend⟩ := hcan
    rw [render, ofChars?_of_isName hname, hend, String.ofList_toList]
    rfl
  | ipv4 address =>
    rw [render, ofChars?_of_isName (isName_render_ipv4 address), Ipv4.endsInNumber_render,
      if_pos rfl, Ipv4.parse?_render hcan]
    rfl
  | ipv6 groups =>
    obtain ⟨hlength, hgroups⟩ := hcan
    have htext : (render (.ipv6 groups)).toList
        = '[' :: ((Ipv6.render groups).toList ++ [']']) := by
      simp [render]
    rw [htext, ofChars?]
    simp [Ipv6.parse?_render hlength hgroups]

/-- Besides characters of names, only colons and brackets are printed, and only for an address of
eight groups. -/
theorem mem_render (hcan : h.IsCanonical) {c : Char} (hc : c ∈ h.render.toList) :
    isNameChar c = true ∨ c ∈ [':', '[', ']'] := by
  cases h with
  | name text => exact .inl (hcan.1.admitted c hc)
  | ipv4 address => exact .inl ((isName_render_ipv4 address).admitted c hc)
  | ipv6 groups =>
    have hinner : c ∈ (Ipv6.render groups).toList → isNameChar c = true ∨ c ∈ [':', '[', ']'] := by
      intro hmem
      rcases mem_render_ipv6 hmem with rfl | hhex
      · exact .inr (by simp)
      · exact .inl (isNameChar_of_hexValue? hhex)
    rw [render, String.toList_append, String.toList_append, List.mem_append, List.mem_append] at hc
    rcases hc with (hc | hc) | hc
    · exact .inr (by simp at hc; simp [hc])
    · exact hinner hc
    · exact .inr (by simp at hc; simp [hc])

end Host

end VaultTokens.Url
