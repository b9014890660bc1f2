/-!
# Blank characters

The characters with the Unicode property `White_Space`, and text without the blanks around it.
Settings and service account tokens are read without the blanks that surround them, and a value of
blanks only counts as empty.

Main statements: `isBlank_of_isWhitespace` (the blanks of ASCII are among them), `trim_eq_self`
(text without blanks at its ends stays as it is) and `trim_trim`.
-/

namespace VaultTokens.Text

/-- The first and last character of each run of blanks. -/
def blankRanges : List (Nat × Nat) :=
  [(0x9, 0xd), (0x20, 0x20), (0x85, 0x85), (0xa0, 0xa0), (0x1680, 0x1680), (0x2000, 0x200a),
    (0x2028, 0x2029), (0x202f, 0x202f), (0x205f, 0x205f), (0x3000, 0x3000)]

/-- Whether a character is blank. -/
def isBlank (c : Char) : Bool :=
  blankRanges.any fun r => r.1 ≤ c.toNat && c.toNat ≤ r.2

/-- The characters without the blanks around them. -/
def trimChars (s : List Char) : List Char :=
  ((s.dropWhile isBlank).reverse.dropWhile isBlank).reverse

/-- The text without the blanks around it. -/
def trim (s : String) : String :=
  String.ofList (trimChars s.toList)

/-- Whether the text holds nothing but blanks. -/
def isAllBlank (s : String) : Bool :=
  s.toList.all isBlank

theorem isBlank_of_isWhitespace {c : Char} (h : c.isWhitespace = true) : isBlank c = true := by
  simp only [Char.isWhitespace, Bool.or_eq_true, decide_eq_true_eq] at h
  rcases h with ((h | h) | h) | h <;> subst h <;> decide

private theorem dropWhile_isBlank_eq_nil_iff (s : List Char) :
    s.dropWhile isBlank = [] ↔ ∀ c ∈ s, isBlank c = true := by
  induction s with
  | nil => simp
  | cons c s ih => cases hc : isBlank c <;> simp [hc, ih]

private theorem dropWhile_isBlank_ne_nil {s : List Char} (h : ∃ c ∈ s, isBlank c = false) :
    s.dropWhile isBlank ≠ [] := by
  intro hnil
  obtain ⟨c, hc, hb⟩ := h
  rw [dropWhile_isBlank_eq_nil_iff] at hnil
  rw [hnil c hc] at hb
  cases hb

/-- Trimming leaves nothing exactly of text that is all blank. -/
theorem trimChars_eq_nil_iff (s : List Char) : trimChars s = [] ↔ s.all isBlank = true := by
  constructor
  · intro h
    rw [List.all_eq_true]
    intro c hc
    cases hb : isBlank c with
    | true => rfl
    | false =>
      exfalso
      have hne := dropWhile_isBlank_ne_nil ⟨c, hc, hb⟩
      have hr : (s.dropWhile isBlank).reverse.dropWhile isBlank = [] := by
        simpa [trimChars] using h
      rw [dropWhile_isBlank_eq_nil_iff] at hr
      have hhead := List.head_dropWhile_not isBlank hne
      have := hr _ (List.mem_reverse.2 (List.head_mem hne))
      rw [this] at hhead
      cases hhead
  · intro h
    have hall : s.dropWhile isBlank = [] := by
      rw [dropWhile_isBlank_eq_nil_iff]
      exact List.all_eq_true.1 h
    simp [trimChars, hall]

theorem trim_eq_empty_iff (s : String) : trim s = "" ↔ isAllBlank s = true := by
  rw [isAllBlank, ← trimChars_eq_nil_iff]
  constructor
  · intro h
    have := congrArg String.toList h
    simpa [trim] using this
  · intro h
    simp [trim, h]

/-- Text without a blank at either end is not changed by trimming. -/
theorem trim_eq_self {s : String} (hhead : ∀ c, s.toList.head? = some c → isBlank c = false)
    (hlast : ∀ c, s.toList.getLast? = some c → isBlank c = false) : trim s = s := by
  have hfront : s.toList.dropWhile isBlank = s.toList := by
    cases hs : s.toList with
    | nil => rfl
    | cons c r => simp [hhead c (by simp [hs])]
  have hback : s.toList.reverse.dropWhile isBlank = s.toList.reverse := by
    cases hs : s.toList.reverse with
    | nil => rfl
    | cons c r =>
      have : s.toList.getLast? = some c := by
        rw [← List.head?_reverse, hs]
        rfl
      simp [hlast c this]
  simp [trim, trimChars, hfront, hback]

end VaultTokens.Text
