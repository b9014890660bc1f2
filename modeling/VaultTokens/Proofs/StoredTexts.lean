import VaultTokens.Text.Blank
import VaultTokens.Text.Utf8

/-!
# Texts in files

A file has bytes, and a text is read from it in two steps: the bytes are decoded, and the blanks at
both ends are left out. This file says what both come to without the way they are done. Bytes have a
text exactly if they are what the text is encoded as, so that every text has one encoding only and a
form that is longer than it must be is no text. What is left without the blanks is the one part of
the text that neither begins nor ends with a blank and has nothing but blanks around it.

## Main results

* `Utf8.decodeStrict_eq_some_iff` — bytes have a text exactly if they encode it
* `trims_trimChars`, `Trims.eq_trimChars` — what is left of a text without the blanks around it
-/

namespace VaultTokens.Text

namespace Utf8

variable {b : UInt8} {rest left : List UInt8} {c : Char} {n v : Nat} {l : Lead}

/-! ### One character -/

theorem toNat_ofNat (h : n.isValidChar) : (Char.ofNat n).toNat = n := by
  rw [Char.ofNat, dif_pos h]
  rfl

/-- A byte is known by its number. -/
theorem ofNat_eq (h : n = b.toNat) : UInt8.ofNat n = b := by
  rw [h, UInt8.ofNat_toNat]

/-- A first byte calls for as many bytes as the numbers need that it can begin, and bounds the
second one where fewer would do, or where there is no character. -/
theorem lead?_cases (h : lead? v = some l) :
    (v < 0x80 ∧ l = ⟨0, 0, 0, v⟩) ∨
      (0xc2 ≤ v ∧ v < 0xe0 ∧ l = ⟨1, 0x80, 0xbf, v - 0xc0⟩) ∨
      (∃ low high, l = ⟨2, low, high, v - 0xe0⟩ ∧ 0xe0 ≤ v ∧ v < 0xf0 ∧ 0x80 ≤ low ∧ high ≤ 0xbf ∧
        (v = 0xe0 → 0xa0 ≤ low) ∧ (v = 0xed → high ≤ 0x9f)) ∨
      ∃ low high, l = ⟨3, low, high, v - 0xf0⟩ ∧ 0xf0 ≤ v ∧ v < 0xf5 ∧ 0x80 ≤ low ∧ high ≤ 0xbf ∧
        (v = 0xf0 → 0x90 ≤ low) ∧ (v = 0xf4 → high ≤ 0x8f) := by
  rw [lead?] at h
  repeat' split at h
  all_goals cases h
  · exact .inl ⟨‹_›, rfl⟩
  · exact .inr (.inl ⟨by omega, ‹_›, rfl⟩)
  · exact .inr (.inr (.inl ⟨_, _, by subst v; rfl, by omega, by omega, by omega, by omega, by omega,
      by omega⟩))
  · exact .inr (.inr (.inl ⟨_, _, by subst v; rfl, by omega, by omega, by omega, by omega, by omega,
      by omega⟩))
  · exact .inr (.inr (.inl ⟨_, _, rfl, by omega, by omega, by omega, by omega, by omega, by omega⟩))
  · exact .inr (.inr (.inr ⟨_, _, by subst v; rfl, by omega, by omega, by omega, by omega, by omega,
      by omega⟩))
  · exact .inr (.inr (.inr ⟨_, _, rfl, by omega, by omega, by omega, by omega, by omega, by omega⟩))
  · exact .inr (.inr (.inr ⟨_, _, by subst v; rfl, by omega, by omega, by omega, by omega, by omega,
      by omega⟩))

/-- What follows a first byte is one more byte within its bounds, and what follows that. -/
theorem follow_succ_eq_some {bits more low high : Nat}
    (h : follow bits (more + 1) low high rest = (some n, left)) :
    ∃ b tail, rest = b :: tail ∧ low ≤ b.toNat ∧ b.toNat ≤ high ∧
      follow (bits * 64 + (b.toNat - 0x80)) more 0x80 0xbf tail = (some n, left) := by
  cases rest with
  | nil => cases (Prod.mk.inj h).1
  | cons b tail =>
    rw [follow] at h
    split at h
    · rename_i hbounds
      exact ⟨b, tail, rfl, hbounds.1, hbounds.2, h⟩
    · cases (Prod.mk.inj h).1

/-- The character of two bytes is encoded as these. -/
theorem encodeChar_two {b b₁ : UInt8} (hle : 0xc2 ≤ b.toNat) (hlt : b.toNat < 0xe0)
    (h₁ : 0x80 ≤ b₁.toNat ∧ b₁.toNat ≤ 0xbf) :
    encodeChar (Char.ofNat ((b.toNat - 0xc0) * 64 + (b₁.toNat - 0x80))) = [b, b₁] := by
  have hvalid : ((b.toNat - 0xc0) * 64 + (b₁.toNat - 0x80)).isValidChar := .inl (by omega)
  rw [encodeChar, toNat_ofNat hvalid, if_neg (by omega), if_pos (by omega), ofNat_eq (b := b),
    ofNat_eq (b := b₁)]
  · omega
  · omega

/-- The character of three bytes is encoded as these. -/
theorem encodeChar_three {b b₁ b₂ : UInt8} (hle : 0xe0 ≤ b.toNat) (hlt : b.toNat < 0xf0)
    (h₁ : 0x80 ≤ b₁.toNat ∧ b₁.toNat ≤ 0xbf) (h₂ : 0x80 ≤ b₂.toNat ∧ b₂.toNat ≤ 0xbf)
    (hfirst : b.toNat = 0xe0 → 0xa0 ≤ b₁.toNat) (hlast : b.toNat = 0xed → b₁.toNat ≤ 0x9f) :
    encodeChar (Char.ofNat (((b.toNat - 0xe0) * 64 + (b₁.toNat - 0x80)) * 64
      + (b₂.toNat - 0x80))) = [b, b₁, b₂] := by
  have hvalid : (((b.toNat - 0xe0) * 64 + (b₁.toNat - 0x80)) * 64
      + (b₂.toNat - 0x80)).isValidChar := by
    rw [Nat.isValidChar]
    omega
  rw [encodeChar, toNat_ofNat hvalid, if_neg (by omega), if_neg (by omega), if_pos (by omega),
    ofNat_eq (b := b), ofNat_eq (b := b₁), ofNat_eq (b := b₂)]
  · omega
  · omega
  · omega

/-- The character of four bytes is encoded as these. -/
theorem encodeChar_four {b b₁ b₂ b₃ : UInt8} (hle : 0xf0 ≤ b.toNat) (hlt : b.toNat < 0xf5)
    (h₁ : 0x80 ≤ b₁.toNat ∧ b₁.toNat ≤ 0xbf) (h₂ : 0x80 ≤ b₂.toNat ∧ b₂.toNat ≤ 0xbf)
    (h₃ : 0x80 ≤ b₃.toNat ∧ b₃.toNat ≤ 0xbf)
    (hfirst : b.toNat = 0xf0 → 0x90 ≤ b₁.toNat) (hlast : b.toNat = 0xf4 → b₁.toNat ≤ 0x8f) :
    encodeChar (Char.ofNat ((((b.toNat - 0xf0) * 64 + (b₁.toNat - 0x80)) * 64
      + (b₂.toNat - 0x80)) * 64 + (b₃.toNat - 0x80))) = [b, b₁, b₂, b₃] := by
  have hvalid : ((((b.toNat - 0xf0) * 64 + (b₁.toNat - 0x80)) * 64 + (b₂.toNat - 0x80)) * 64
      + (b₃.toNat - 0x80)).isValidChar := by
    rw [Nat.isValidChar]
    omega
  rw [encodeChar, toNat_ofNat hvalid, if_neg (by omega), if_neg (by omega), if_neg (by omega),
    ofNat_eq (b := b), ofNat_eq (b := b₁), ofNat_eq (b := b₂), ofNat_eq (b := b₃)]
  · omega
  · omega
  · omega
  · omega

/-- **A character that is read is one that was written**: the bytes are those it is encoded as. -/
theorem eq_encodeChar_append (h : step b rest = (some c, left)) :
    b :: rest = encodeChar c ++ left := by
  rw [step] at h
  split at h
  · cases (Prod.mk.inj h).1
  rename_i l hlead
  simp only [Prod.mk.injEq, Option.map_eq_some_iff] at h
  obtain ⟨⟨n, hpoint, rfl⟩, hleft⟩ := h
  have hfollow : follow l.bits l.more l.low l.high rest = (some n, left) := Prod.ext hpoint hleft
  obtain ⟨hv, rfl⟩ | ⟨hle, hlt, rfl⟩ | ⟨low, high, rfl, hle, hlt, hlow, hhigh, hfirst, hlast⟩ |
    ⟨low, high, rfl, hle, hlt, hlow, hhigh, hfirst, hlast⟩ := lead?_cases hlead
  · obtain ⟨hn, rfl⟩ := Prod.mk.inj hfollow
    obtain rfl := Option.some.inj hn
    have hvalid : b.toNat.isValidChar := .inl (by omega)
    rw [encodeChar, toNat_ofNat hvalid, if_pos hv, ofNat_eq rfl]
    rfl
  · obtain ⟨b₁, tail, rfl, hlow₁, hhigh₁, hend⟩ := follow_succ_eq_some hfollow
    obtain ⟨hn, rfl⟩ := Prod.mk.inj hend
    obtain rfl := Option.some.inj hn
    rw [encodeChar_two hle hlt ⟨hlow₁, hhigh₁⟩]
    rfl
  · obtain ⟨b₁, tail, rfl, hlow₁, hhigh₁, hnext⟩ := follow_succ_eq_some hfollow
    obtain ⟨b₂, tail, rfl, hlow₂, hhigh₂, hend⟩ := follow_succ_eq_some hnext
    obtain ⟨hn, rfl⟩ := Prod.mk.inj hend
    obtain rfl := Option.some.inj hn
    rw [encodeChar_three hle hlt ⟨Nat.le_trans hlow hlow₁, Nat.le_trans hhigh₁ hhigh⟩
      ⟨hlow₂, hhigh₂⟩ (fun hb => Nat.le_trans (hfirst hb) hlow₁)
      (fun hb => Nat.le_trans hhigh₁ (hlast hb))]
    rfl
  · obtain ⟨b₁, tail, rfl, hlow₁, hhigh₁, hnext⟩ := follow_succ_eq_some hfollow
    obtain ⟨b₂, tail, rfl, hlow₂, hhigh₂, hnext⟩ := follow_succ_eq_some hnext
    obtain ⟨b₃, tail, rfl, hlow₃, hhigh₃, hend⟩ := follow_succ_eq_some hnext
    obtain ⟨hn, rfl⟩ := Prod.mk.inj hend
    obtain rfl := Option.some.inj hn
    rw [encodeChar_four hle hlt ⟨Nat.le_trans hlow hlow₁, Nat.le_trans hhigh₁ hhigh⟩
      ⟨hlow₂, hhigh₂⟩ ⟨hlow₃, hhigh₃⟩ (fun hb => Nat.le_trans (hfirst hb) hlow₁)
      (fun hb => Nat.le_trans hhigh₁ (hlast hb))]
    rfl

/-! ### All characters -/

/-- Characters are read strictly only if there is no gap among them. -/
theorem eq_map_of_mapM_id {α : Type} {l : List (Option α)} {r : List α} (h : l.mapM id = some r) :
    l = r.map some := by
  induction l generalizing r with
  | nil =>
    obtain rfl := Option.some.inj h
    rfl
  | cons x l ih =>
    rw [List.mapM_cons] at h
    obtain ⟨a, ha, h⟩ := Option.bind_eq_some_iff.mp h
    obtain ⟨rest, hrest, h⟩ := Option.bind_eq_some_iff.mp h
    obtain rfl := Option.some.inj h
    obtain rfl : x = some a := ha
    rw [ih hrest]
    rfl

theorem eq_encode_of_decode {bytes : List UInt8} {text : List Char}
    (h : decode bytes = text.map some) : bytes = encode text := by
  fun_induction decode bytes generalizing text with
  | case1 =>
    obtain rfl := List.map_eq_nil_iff.mp h.symm
    rfl
  | case2 b rest ih =>
    cases text with
    | nil => cases h
    | cons c text =>
      obtain ⟨hfirst, hrest⟩ := List.cons.inj h
      rw [eq_encodeChar_append (Prod.ext hfirst rfl), encode, List.flatMap_cons]
      exact congrArg (encodeChar c ++ ·) (ih hrest)

/-- **Bytes have a text exactly if they encode it.** -/
theorem decodeStrict_eq_some_iff {bytes : List UInt8} {text : List Char} :
    decodeStrict bytes = some text ↔ bytes = encode text := by
  constructor
  · intro h
    exact eq_encode_of_decode (eq_map_of_mapM_id h)
  · rintro rfl
    exact decodeStrict_encode text

end Utf8

/-! ### Blanks around a text -/

/-- What is left of a text without the blanks around it. -/
structure Trims (text core : List Char) : Prop where
  /-- There is nothing but blanks around it. -/
  around : ∃ front back, text = front ++ core ++ back ∧ front.all isBlank = true ∧
    back.all isBlank = true
  /-- It does not begin with a blank. -/
  first : ∀ c, core.head? = some c → isBlank c = false
  /-- It does not end with one. -/
  last : ∀ c, core.getLast? = some c → isBlank c = false

theorem dropWhile_eq_self {α : Type} {p : α → Bool} {l : List α}
    (h : ∀ x, l.head? = some x → p x = false) : l.dropWhile p = l := by
  cases l with
  | nil => rfl
  | cons x l =>
    rw [List.dropWhile_cons_of_neg]
    rw [h x rfl]
    exact Bool.false_ne_true

theorem not_of_head?_dropWhile {α : Type} {p : α → Bool} {l : List α} {x : α}
    (h : (l.dropWhile p).head? = some x) : p x = false := by
  have hnot := List.head?_dropWhile_not p l
  rwa [h] at hnot

/-- **Trimming leaves what is left without the blanks around it.** -/
theorem trims_trimChars (text : List Char) : Trims text (trimChars text) := by
  have hback : text.dropWhile isBlank
      = trimChars text ++ ((text.dropWhile isBlank).reverse.takeWhile isBlank).reverse := by
    rw [trimChars, ← List.reverse_append, List.takeWhile_append_dropWhile, List.reverse_reverse]
  refine ⟨⟨text.takeWhile isBlank,
    ((text.dropWhile isBlank).reverse.takeWhile isBlank).reverse, ?_, List.all_takeWhile, ?_⟩,
    ?_, ?_⟩
  · rw [List.append_assoc, ← hback, List.takeWhile_append_dropWhile]
  · rw [List.all_reverse]
    exact List.all_takeWhile
  · intro c hc
    refine not_of_head?_dropWhile (l := text) ?_
    rw [hback, List.head?_append, hc, Option.some_or]
  · intro c hc
    rw [trimChars, List.getLast?_reverse] at hc
    exact not_of_head?_dropWhile hc

/-- What is left of a text is blank exactly if the text is. -/
theorem Trims.all_isBlank {text core : List Char} (h : Trims text core) :
    text.all isBlank = core.all isBlank := by
  obtain ⟨front, back, rfl, hfront, hback⟩ := h.around
  rw [List.all_append, List.all_append, hfront, hback, Bool.true_and, Bool.and_true]

/-- Something is left of a text that is not blank. -/
theorem Trims.isBlank_eq_false {text core : List Char} (h : Trims text core)
    (hnamed : text.all isBlank = false) : core.all isBlank = false :=
  h.all_isBlank.symm.trans hnamed

/-- **Nothing else is left** of a text that is not blank. -/
theorem Trims.eq_trimChars {text core : List Char} (h : Trims text core)
    (hnamed : text.all isBlank = false) : core = trimChars text := by
  have hcore := h.isBlank_eq_false hnamed
  obtain ⟨front, back, rfl, hfront, hback⟩ := h.around
  have hhead : ∀ c, (core ++ back).head? = some c → isBlank c = false := by
    cases core with
    | nil => cases hcore
    | cons c core => exact h.first
  have hlast : ∀ c, core.reverse.head? = some c → isBlank c = false := by
    rw [List.head?_reverse]
    exact h.last
  rw [trimChars, List.append_assoc, List.dropWhile_append_of_pos (List.all_eq_true.mp hfront),
    dropWhile_eq_self hhead, List.reverse_append, List.dropWhile_append_of_pos
      (List.all_eq_true.mp (List.all_reverse.trans hback)), dropWhile_eq_self hlast,
    List.reverse_reverse]

end VaultTokens.Text
