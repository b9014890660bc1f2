import VaultTokens.Json.Reader

/-!
# Literals as they are scanned

The scanner takes a string or a number off the head of what is left, and does not say which ones
there are. `IsLiteral` and `IsNumber` say it, by the marks they are made of. What is scanned is of
that form and stood at the head; what is of that form is scanned in full.

A string ends with its quotation mark, whatever follows. A number has no end of its own: it goes on
as long as it can, so it is scanned in full only where nothing follows that could belong to it. What
that means differs from part to part, and `Stops` says it of the rest: behind the whole digits there
may be no further digit, behind the fraction no digit or point, behind the number no mark of an
exponent either.

## Main results

* `isLiteral_of_scanString`, `scanString_append` — the strings that are scanned
* `isNumber_of_scanNumber`, `scanNumber_append` — the numbers that are scanned
-/

namespace VaultTokens.Json

variable {s rest : List Symbol} {l : List Symbol}

/-- What is scanned may be made into something else; what is left is the same. -/
theorem exists_of_map_scanned {α β : Type} (f : α → β) {scanned : Option (α × List Symbol)} {b : β}
    (h : (scanned.map fun r => (f r.1, r.2)) = some (b, rest)) :
    ∃ a, scanned = some (a, rest) ∧ b = f a := by
  obtain ⟨⟨a, _⟩, ha, heq⟩ := Option.map_eq_some_iff.mp h
  obtain ⟨rfl, rfl⟩ := Prod.mk.inj heq
  exact ⟨a, ha, rfl⟩

/-! ### Strings -/

/-- What may stand between the quotation marks of a string. -/
inductive IsLiteral : List Symbol → Prop where
  | nil : IsLiteral []
  | gap {l : List Symbol} (h : IsLiteral l) : IsLiteral (none :: l)
  | plain {c : Char} {l : List Symbol} (hquote : c ≠ '\"') (hslash : c ≠ '\\')
    (hcontrol : 0x20 ≤ c.toNat) (h : IsLiteral l) : IsLiteral (some c :: l)
  | short {e c : Char} {l : List Symbol} (he : unescape? e = some c) (h : IsLiteral l) :
    IsLiteral (some '\\' :: some e :: l)
  | unit {a b c d : Char} {n : Nat} {l : List Symbol} (hn : hex4? a b c d = some n)
    (h : IsLiteral l) :
    IsLiteral (some '\\' :: some 'u' :: some a :: some b :: some c :: some d :: l)

theorem ne_u_of_unescape? {e c : Char} (h : unescape? e = some c) : e ≠ 'u' := by
  rintro rfl
  cases h

/-- **What is scanned as a string is one**, and stood at the head. -/
theorem isLiteral_of_scanString (h : scanString s = some (l, rest)) :
    IsLiteral l ∧ s = l ++ some '\"' :: rest := by
  fun_induction scanString s generalizing l with
  | case1 => cases h
  | case2 =>
    obtain ⟨rfl, rfl⟩ := Prod.mk.inj (Option.some.inj h)
    exact ⟨.nil, rfl⟩
  | case3 a b c d more ih =>
    simp only [Option.bind_eq_bind, Option.bind_eq_some_iff, Option.pure_def, Option.some.injEq,
      Prod.mk.injEq] at h
    obtain ⟨n, hn, ⟨l, _⟩, hl, rfl, rfl⟩ := h
    obtain ⟨hliteral, rfl⟩ := ih hl
    exact ⟨.unit hn hliteral, rfl⟩
  | case4 e more _ ih =>
    simp only [Option.bind_eq_bind, Option.bind_eq_some_iff, Option.pure_def, Option.some.injEq,
      Prod.mk.injEq] at h
    obtain ⟨c, hc, ⟨l, _⟩, hl, rfl, rfl⟩ := h
    obtain ⟨hliteral, rfl⟩ := ih hl
    exact ⟨.short hc hliteral, rfl⟩
  | case5 => cases h
  | case6 more ih =>
    obtain ⟨l, hl, rfl⟩ := exists_of_map_scanned (none :: ·) h
    obtain ⟨hliteral, rfl⟩ := ih hl
    exact ⟨.gap hliteral, rfl⟩
  | case7 => cases h
  | case8 c more hquote _ _ hslash hcontrol ih =>
    obtain ⟨l, hl, rfl⟩ := exists_of_map_scanned (some c :: ·) h
    obtain ⟨hliteral, rfl⟩ := ih hl
    exact ⟨.plain hquote hslash (Nat.le_of_not_lt hcontrol) hliteral, rfl⟩

/-- **A string is scanned up to its closing quotation mark.** -/
theorem scanString_append (h : IsLiteral l) (rest : List Symbol) :
    scanString (l ++ some '\"' :: rest) = some (l, rest) := by
  induction h with
  | nil => rfl
  | gap h ih =>
    rw [List.cons_append, scanString, ih]
    rfl
  | plain hquote hslash hcontrol h ih =>
    rw [List.cons_append, scanString, if_neg (Nat.not_lt.mpr hcontrol), ih]
    · rfl
    all_goals simp_all
  | short he h ih =>
    have hu := ne_u_of_unescape? he
    rw [List.cons_append, List.cons_append, scanString, he, ih]
    · rfl
    · exact fun _ _ _ _ _ _ => hu
  | unit hn h ih =>
    simp only [List.cons_append]
    rw [scanString, hn, ih]
    rfl

/-! ### Numbers -/

/-- At least one digit, and nothing else. -/
def IsDigits (ds : List Char) : Prop := ds ≠ [] ∧ ∀ c ∈ ds, c.isDigit = true

/-- A fraction, or none. -/
inductive IsFraction : List Char → Prop where
  | absent : IsFraction []
  | point {ds : List Char} (h : IsDigits ds) : IsFraction ('.' :: ds)

/-- An exponent, or none. -/
inductive IsExponent : List Char → Prop where
  | absent : IsExponent []
  | power {e : Char} {sign ds : List Char} (he : e = 'e' ∨ e = 'E')
    (hsign : sign = [] ∨ sign = ['+'] ∨ sign = ['-']) (h : IsDigits ds) :
    IsExponent (e :: sign ++ ds)

/-- A number without a sign. A leading zero stands alone. -/
inductive IsUnsigned : List Char → Prop where
  | intro {whole fraction exponent : List Char} (hwhole : IsDigits whole)
    (hzero : whole.head? = some '0' → whole = ['0']) (hfraction : IsFraction fraction)
    (hexponent : IsExponent exponent) : IsUnsigned (whole ++ fraction ++ exponent)

/-- A number. -/
inductive IsNumber : List Char → Prop where
  | unsigned {l : List Char} (h : IsUnsigned l) : IsNumber l
  | negative {l : List Char} (h : IsUnsigned l) : IsNumber ('-' :: l)

/-- What is left does not begin with a character of some kind. -/
def Stops (p : Char → Bool) (rest : List Symbol) : Prop :=
  ∀ c more, rest = some c :: more → p c = false

theorem scanDigits_eq (s : List Symbol) :
    s = (scanDigits s).1.map some ++ (scanDigits s).2 ∧
      ∀ c ∈ (scanDigits s).1, c.isDigit = true := by
  fun_induction scanDigits s with
  | case1 c rest hc ih =>
    refine ⟨by rw [List.map_cons, List.cons_append, ← ih.1], ?_⟩
    rintro d hd
    rcases List.mem_cons.mp hd with rfl | hd
    · exact hc
    · exact ih.2 d hd
  | case2 c rest hc => exact ⟨rfl, nofun⟩
  | case3 rest => exact ⟨rfl, nofun⟩

/-- Digits are scanned in full where no other one follows. -/
theorem scanDigits_append {ds : List Char} (hds : ∀ c ∈ ds, c.isDigit = true)
    (hrest : Stops Char.isDigit rest) : scanDigits (ds.map some ++ rest) = (ds, rest) := by
  induction ds with
  | nil =>
    rw [List.map_nil, List.nil_append]
    cases rest with
    | nil => rfl
    | cons symbol more =>
      cases symbol with
      | none => rfl
      | some c => rw [scanDigits, if_neg (by rw [hrest c more rfl]; exact Bool.false_ne_true)]
  | cons c ds ih =>
    rw [List.map_cons, List.cons_append, scanDigits, if_pos (hds c List.mem_cons_self),
      ih fun d hd => hds d (List.mem_cons_of_mem c hd)]

theorem Stops.mono {p q : Char → Bool} (h : Stops p rest) (hle : ∀ c, q c = true → p c = true) :
    Stops q rest := by
  intro c more heq
  have hp := h c more heq
  rw [← Bool.not_eq_true] at hp ⊢
  exact fun hq => hp (hle c hq)

theorem stops_cons {p : Char → Bool} {c : Char} (hc : p c = false) (more : List Symbol) :
    Stops p (some c :: more) := by
  intro d more' heq
  obtain rfl := Option.some.inj (List.cons.inj heq).1
  exact hc

theorem stops_nil (p : Char → Bool) : Stops p [] := nofun

/-- Whether a character may go on a number in which a fraction may follow. -/
def isDigitOrPoint (c : Char) : Bool := c.isDigit || c = '.'

/-- Whether a character may go on a number. -/
def goesOn (c : Char) : Bool := isDigitOrPoint c || c = 'e' || c = 'E'

theorem isFraction_of_scanFraction {f : List Char} (h : scanFraction s = some (f, rest)) :
    IsFraction f ∧ s = f.map some ++ rest := by
  unfold scanFraction at h
  split at h
  · rename_i more
    obtain ⟨hsplit, hdigits⟩ := scanDigits_eq more
    simp only at h
    split at h
    · cases h
    · rename_i hnone
      obtain ⟨rfl, rfl⟩ := Prod.mk.inj (Option.some.inj h)
      refine ⟨.point ⟨by simpa using hnone, hdigits⟩, ?_⟩
      rw [List.map_cons, List.cons_append, ← hsplit]
  · obtain ⟨rfl, rfl⟩ := Prod.mk.inj (Option.some.inj h)
    exact ⟨.absent, rfl⟩

theorem scanFraction_append {f : List Char} (h : IsFraction f) (hrest : Stops isDigitOrPoint rest) :
    scanFraction (f.map some ++ rest) = some (f, rest) := by
  cases h with
  | absent =>
    unfold scanFraction
    rw [List.map_nil, List.nil_append]
    split
    · rename_i more
      exact absurd (hrest '.' more rfl) nofun
    · rfl
  | point hds =>
    have hdigits := scanDigits_append hds.2 (hrest.mono fun c hc => by simp [isDigitOrPoint, hc])
    rw [List.map_cons, List.cons_append, scanFraction, hdigits]
    simp [hds.1]

theorem scanSign_eq (s : List Symbol) :
    s = (scanSign s).1.map some ++ (scanSign s).2 ∧
      ((scanSign s).1 = [] ∨ (scanSign s).1 = ['+'] ∨ (scanSign s).1 = ['-']) := by
  unfold scanSign
  split
  · exact ⟨rfl, .inr (.inl rfl)⟩
  · exact ⟨rfl, .inr (.inr rfl)⟩
  · exact ⟨rfl, .inl rfl⟩

theorem isExponent_of_scanExponent {e : List Char} (h : scanExponent s = some (e, rest)) :
    IsExponent e ∧ s = e.map some ++ rest := by
  unfold scanExponent at h
  split at h
  · rename_i c more
    split at h
    · rename_i hc
      obtain ⟨hsign, hsigns⟩ := scanSign_eq more
      obtain ⟨hsplit, hdigits⟩ := scanDigits_eq (scanSign more).2
      simp only at h
      split at h
      · cases h
      · rename_i hnone
        obtain ⟨rfl, rfl⟩ := Prod.mk.inj (Option.some.inj h)
        refine ⟨.power hc hsigns ⟨by simpa using hnone, hdigits⟩, ?_⟩
        rw [List.map_append, List.map_cons, List.append_assoc, List.cons_append, ← hsplit, ← hsign]
    · obtain ⟨rfl, rfl⟩ := Prod.mk.inj (Option.some.inj h)
      exact ⟨.absent, rfl⟩
  · obtain ⟨rfl, rfl⟩ := Prod.mk.inj (Option.some.inj h)
    exact ⟨.absent, rfl⟩

theorem scanSign_append {sign ds : List Char} (hsign : sign = [] ∨ sign = ['+'] ∨ sign = ['-'])
    (hds : IsDigits ds) (rest : List Symbol) :
    scanSign (sign.map some ++ (ds.map some ++ rest)) = (sign, ds.map some ++ rest) := by
  rcases hsign with rfl | rfl | rfl
  · obtain ⟨c, more, rfl⟩ := List.exists_cons_of_ne_nil hds.1
    have hc := hds.2 c List.mem_cons_self
    rw [List.map_nil, List.nil_append, List.map_cons, List.cons_append, scanSign] <;>
      · rintro _ heq
        obtain rfl := Option.some.inj (List.cons.inj heq).1
        cases hc
  · rfl
  · rfl

theorem scanExponent_append {e : List Char} (h : IsExponent e) (hrest : Stops goesOn rest) :
    scanExponent (e.map some ++ rest) = some (e, rest) := by
  cases h with
  | absent =>
    unfold scanExponent
    rw [List.map_nil, List.nil_append]
    split
    · rename_i c more
      rw [if_neg]
      rintro (rfl | rfl) <;> exact absurd (hrest _ more rfl) nofun
    · rfl
  | power he hsign hds =>
    have hdigits := scanDigits_append hds.2
      (hrest.mono fun c hc => by simp [goesOn, isDigitOrPoint, hc])
    rw [List.map_append, List.map_cons, List.append_assoc, List.cons_append, scanExponent,
      if_pos he, scanSign_append hsign hds]
    simp only [hdigits]
    simp [hds.1]

theorem isUnsigned_of_scanUnsigned {l : List Char} (h : scanUnsigned s = some (l, rest)) :
    IsUnsigned l ∧ s = l.map some ++ rest := by
  obtain ⟨hsplit, hdigits⟩ := scanDigits_eq s
  rw [scanUnsigned] at h
  simp only at h
  split at h
  · cases h
  · rename_i hwhole
    simp only [Bool.or_eq_true, Bool.and_eq_true, decide_eq_true_eq, not_or, not_and,
      List.isEmpty_iff] at hwhole
    simp only [Option.bind_eq_bind, Option.bind_eq_some_iff, Option.pure_def, Option.some.injEq,
      Prod.mk.injEq] at h
    obtain ⟨⟨f, _⟩, hf, ⟨e, _⟩, he, rfl, rfl⟩ := h
    obtain ⟨hfraction, hf⟩ := isFraction_of_scanFraction hf
    obtain ⟨hexponent, rfl⟩ := isExponent_of_scanExponent he
    refine ⟨.intro ⟨hwhole.1, hdigits⟩ (fun hzero => ?_) hfraction hexponent, ?_⟩
    · have hshort := hwhole.2 hzero
      obtain ⟨c, more, hcons⟩ := List.exists_cons_of_ne_nil hwhole.1
      rw [hcons] at hzero hshort ⊢
      obtain rfl := Option.some.inj hzero
      cases more with
      | nil => rfl
      | cons d more => simp at hshort
    · rw [List.map_append, List.map_append, List.append_assoc, List.append_assoc, ← hf, ← hsplit]

/-- Neither a digit nor a point stands behind a fraction, for an exponent begins with a letter. -/
theorem stops_exponent {e : List Char} (h : IsExponent e) (hrest : Stops goesOn rest) :
    Stops isDigitOrPoint (e.map some ++ rest) := by
  cases h with
  | absent => exact hrest.mono fun c hc => by simp [goesOn, hc]
  | power he hsign hds =>
    refine stops_cons ?_ _
    rcases he with rfl | rfl <;> rfl

/-- No digit stands behind the whole digits. -/
theorem stops_fraction {f : List Char} (h : IsFraction f) (hrest : Stops isDigitOrPoint rest) :
    Stops Char.isDigit (f.map some ++ rest) := by
  cases h with
  | absent => exact hrest.mono fun c hc => by simp [isDigitOrPoint, hc]
  | point hds => exact stops_cons rfl _

theorem scanUnsigned_append {l : List Char} (h : IsUnsigned l) (hrest : Stops goesOn rest) :
    scanUnsigned (l.map some ++ rest) = some (l, rest) := by
  obtain ⟨hwhole, hzero, hfraction, hexponent⟩ := h
  rename_i whole fraction exponent
  have hstops := stops_exponent hexponent hrest
  have hshort : (whole.isEmpty || (whole.head? = some '0' && 1 < whole.length)) = false := by
    rw [List.isEmpty_eq_false_iff.mpr hwhole.1, Bool.false_or]
    by_cases hhead : whole.head? = some '0'
    · rw [hzero hhead]
      rfl
    · simp [hhead]
  rw [List.map_append, List.map_append, List.append_assoc, List.append_assoc, scanUnsigned,
    scanDigits_append hwhole.2 (stops_fraction hfraction hstops)]
  simp only [hshort, scanFraction_append hfraction hstops, Option.bind_eq_bind, Option.bind_some,
    scanExponent_append hexponent hrest]
  simp

/-- **What is scanned as a number is one**, and stood at the head. -/
theorem isNumber_of_scanNumber {l : List Char} (h : scanNumber s = some (l, rest)) :
    IsNumber l ∧ s = l.map some ++ rest := by
  unfold scanNumber at h
  split at h
  · obtain ⟨l, hl, rfl⟩ := exists_of_map_scanned ('-' :: ·) h
    obtain ⟨hunsigned, rfl⟩ := isUnsigned_of_scanUnsigned hl
    exact ⟨.negative hunsigned, rfl⟩
  · obtain ⟨hunsigned, rfl⟩ := isUnsigned_of_scanUnsigned h
    exact ⟨.unsigned hunsigned, rfl⟩

/-- A number begins with a digit, if it has no sign. -/
theorem IsUnsigned.exists_cons {l : List Char} (h : IsUnsigned l) :
    ∃ c more, l = c :: more ∧ c.isDigit = true := by
  obtain ⟨hwhole, -, -, -⟩ := h
  obtain ⟨c, more, rfl⟩ := List.exists_cons_of_ne_nil hwhole.1
  exact ⟨c, _, rfl, hwhole.2 c List.mem_cons_self⟩

/-- A number begins with its sign or a digit. -/
theorem IsNumber.exists_cons {l : List Char} (h : IsNumber l) :
    ∃ c more, l = c :: more ∧ (c = '-' ∨ c.isDigit = true) := by
  cases h with
  | negative h => exact ⟨'-', _, rfl, .inl rfl⟩
  | unsigned h =>
    obtain ⟨c, more, rfl, hc⟩ := h.exists_cons
    exact ⟨c, more, rfl, .inr hc⟩

/-- **A number is scanned in full where nothing follows that could go on with it.** -/
theorem scanNumber_append {l : List Char} (h : IsNumber l) (hrest : Stops goesOn rest) :
    scanNumber (l.map some ++ rest) = some (l, rest) := by
  cases h with
  | unsigned h =>
    obtain ⟨c, more, hl, hc⟩ := h.exists_cons
    rw [← scanUnsigned_append h hrest, hl, List.map_cons, List.cons_append, scanNumber]
    rintro _ heq
    obtain rfl := Option.some.inj (List.cons.inj heq).1
    cases hc
  | negative h =>
    rw [List.map_cons, List.cons_append, scanNumber, scanUnsigned_append h hrest]
    rfl

end VaultTokens.Json
