import Mathlib.Data.List.DropRight
import Mathlib.Data.List.TakeWhile
import VaultTokens.Proofs.ScannedLiterals

/-!
# What documents denote

`Denotes` is the grammar of documents: which symbols denote which value, by the constructors of
values. A value of an array or an object comes as a `Piece`, with the blanks around it, and a member
as an `Entry`. The scanner is shown to read this grammar and nothing else, so that a question about
what is read becomes one about what is written.

## Both directions

What denotes a value is scanned as that value, by induction on the grammar. The scan must work
wherever the value stands, so `Scans` speaks of any blanks in front of it and of any rest behind it
in which no number goes on. The fuel is twice the length of the symbols, which is enough for the
parts too, since each part is shorter by a mark.

What is scanned denotes the value, by induction on the fuel. The three scanners call each other with
less fuel, and `Sound` is what is known of all three.

## Main results

* `Denotes.scans` — what denotes a value is scanned as that value
* `sound` — what is scanned denotes the value
* `parse?_eq_some_iff` — a document is read if and only if it is one
-/

namespace VaultTokens.Json

variable {s rest : List Symbol} {node : Node}

/-! ### The grammar -/

/-- Symbols that may stand between values. -/
def Blank (s : List Symbol) : Prop := ∀ c ∈ s, isSpace c = true

/-- A value as it stands in a document. -/
structure Piece where
  /-- The symbols in front of it. -/
  before : List Symbol
  /-- Its own symbols. -/
  value : List Symbol
  /-- The symbols behind it. -/
  after : List Symbol
  /-- What it denotes. -/
  node : Node

namespace Piece

/-- A piece as it stands in a document. -/
def symbols (p : Piece) : List Symbol := p.before ++ p.value ++ p.after

/-- Around a value there are blanks only. -/
structure Spaced (p : Piece) : Prop where
  /-- In front of it. -/
  before : Blank p.before
  /-- Behind it. -/
  after : Blank p.after

end Piece

/-- A member as it stands in an object. -/
structure Entry where
  /-- The symbols in front of its name. -/
  before : List Symbol
  /-- Its name as written. -/
  name : List Symbol
  /-- The symbols between its name and the colon. -/
  between : List Symbol
  /-- Its value. -/
  piece : Piece

namespace Entry

/-- A member with its marks. -/
def symbols (e : Entry) : List Symbol :=
  e.before ++ some '\"' :: e.name ++ some '\"' :: e.between ++ some ':' :: e.piece.symbols

/-- The member that is denoted. -/
def member (e : Entry) : List Symbol × Node := (e.name, e.piece.node)

/-- The name is a literal, and around it and the value there are blanks only. -/
structure Spaced (e : Entry) : Prop where
  /-- In front of the name. -/
  before : Blank e.before
  /-- The name. -/
  name : IsLiteral e.name
  /-- Between the name and the colon. -/
  between : Blank e.between
  /-- Around the value. -/
  piece : e.piece.Spaced

end Entry

/-- Parts in a row, with a comma between each two. -/
def row (parts : List (List Symbol)) : List Symbol := [some ','].intercalate parts

/-- The symbols denote the value. -/
inductive Denotes : List Symbol → Node → Prop where
  | null : Denotes ("null".toList.map some) .null
  | yes : Denotes ("true".toList.map some) (.bool true)
  | no : Denotes ("false".toList.map some) (.bool false)
  | number {l : List Char} (h : IsNumber l) : Denotes (l.map some) (.number l)
  | string {l : List Symbol} (h : IsLiteral l) :
    Denotes (some '\"' :: l ++ [some '\"']) (.string l)
  | emptyArray {b : List Symbol} (h : Blank b) :
    Denotes (some '[' :: b ++ [some ']']) (.array [])
  | array {p : Piece} {more : List Piece} (hspaced : ∀ q ∈ p :: more, q.Spaced)
    (hvalue : ∀ q ∈ p :: more, Denotes q.value q.node) :
    Denotes (some '[' :: row ((p :: more).map Piece.symbols) ++ [some ']'])
      (.array ((p :: more).map Piece.node))
  | emptyObject {b : List Symbol} (h : Blank b) :
    Denotes (some '\x7b' :: b ++ [some '\x7d']) (.object [])
  | object {e : Entry} {more : List Entry} (hspaced : ∀ q ∈ e :: more, q.Spaced)
    (hvalue : ∀ q ∈ e :: more, Denotes q.piece.value q.piece.node) :
    Denotes (some '\x7b' :: row ((e :: more).map Entry.symbols) ++ [some '\x7d'])
      (.object ((e :: more).map Entry.member))

/-- The symbols are those of a value, with blanks around it. -/
def Document (s : List Symbol) (node : Node) : Prop :=
  ∃ p : Piece, p.Spaced ∧ Denotes p.value p.node ∧ p.symbols = s ∧ p.node = node

/-! ### Blanks -/

theorem skip_append {b : List Symbol} (hb : Blank b) (s : List Symbol) : skip (b ++ s) = skip s :=
  List.dropWhile_append_of_pos hb

theorem skip_append_cons {b : List Symbol} (hb : Blank b) {c : Char}
    (hc : isSpace (some c) = false) (rest : List Symbol) :
    skip (b ++ some c :: rest) = some c :: rest := by
  rw [skip_append hb, skip, List.dropWhile_cons_of_neg (by simp [hc])]

theorem skip_skip (s : List Symbol) : skip (skip s) = skip s := List.dropWhile_idempotent _ _

/-- What is skipped is blank. -/
theorem exists_blank_append_skip (s : List Symbol) : ∃ b, Blank b ∧ s = b ++ skip s :=
  ⟨s.takeWhile isSpace, fun _ hc => List.mem_takeWhile_imp hc, List.takeWhile_append_dropWhile.symm⟩

theorem goesOn_of_isSpace {c : Char} (h : isSpace (some c) = true) : goesOn c = false := by
  simp only [isSpace, Bool.or_eq_true, decide_eq_true_eq, Option.some.injEq] at h
  rcases h with ((rfl | rfl) | rfl) | rfl <;> rfl

/-- No number goes on behind blanks. -/
theorem stops_append {b : List Symbol} (hb : Blank b) (hrest : Stops goesOn rest) :
    Stops goesOn (b ++ rest) := by
  cases b with
  | nil => exact hrest
  | cons symbol b =>
    intro c more heq
    obtain ⟨rfl, -⟩ := List.cons.inj heq
    exact goesOn_of_isSpace (hb _ List.mem_cons_self)

/-! ### What denotes a value is scanned as that value -/

/-- A scan finds a value behind any blanks, and leaves what follows. -/
def Scans (value : List Symbol) (node : Node) : Prop :=
  ∀ (fuel : Nat) (before rest : List Symbol), Blank before → 2 * value.length ≤ fuel →
    Stops goesOn rest → scanValue fuel (before ++ (value ++ rest)) = some (node, rest)

/-- No number begins with a blank. -/
theorem isSpace_of_number {c : Char} (hc : c = '-' ∨ c.isDigit = true) :
    isSpace (some c) = false := by
  rw [← Bool.not_eq_true]
  intro hspace
  rcases hc with rfl | hc
  · cases hspace
  · have hnone := goesOn_of_isSpace hspace
    simp [goesOn, isDigitOrPoint, hc] at hnone

/-- A value begins with a character that is neither a blank nor the end of an array. -/
theorem Denotes.exists_cons {value : List Symbol} (h : Denotes value node) :
    ∃ c more, value = some c :: more ∧ isSpace (some c) = false ∧ c ≠ ']' := by
  cases h with
  | null => exact ⟨'n', _, rfl, rfl, by decide⟩
  | yes => exact ⟨'t', _, rfl, rfl, by decide⟩
  | no => exact ⟨'f', _, rfl, rfl, by decide⟩
  | string h => exact ⟨'\"', _, rfl, rfl, by decide⟩
  | emptyArray h => exact ⟨'[', _, rfl, rfl, by decide⟩
  | array hspaced hvalue => exact ⟨'[', _, rfl, rfl, by decide⟩
  | emptyObject h => exact ⟨'\x7b', _, rfl, rfl, by decide⟩
  | object hspaced hvalue => exact ⟨'\x7b', _, rfl, rfl, by decide⟩
  | number h =>
    obtain ⟨c, more, rfl, hc⟩ := h.exists_cons
    refine ⟨c, _, rfl, isSpace_of_number hc, ?_⟩
    rintro rfl
    rcases hc with hc | hc <;> cases hc

/-- A number is scanned where no other value begins. -/
theorem scanValue_eq_scanNumber {c : Char} {more : List Symbol} (hs : skip s = some c :: more)
    (hc : c = '-' ∨ c.isDigit = true) (fuel : Nat) :
    scanValue (fuel + 1) s = (scanNumber (some c :: more)).map fun r => (.number r.1, r.2) := by
  rw [scanValue, hs]
  split
  case h_7 => rfl
  all_goals
    rename_i heq
    obtain rfl := Option.some.inj (List.cons.inj heq).1
    rcases hc with hc | hc <;> cases hc

theorem scans_number {l : List Char} (h : IsNumber l) : Scans (l.map some) (.number l) := by
  intro fuel before rest hbefore hfuel hrest
  obtain ⟨c, more, rfl, hc⟩ := h.exists_cons
  obtain ⟨fuel, rfl⟩ : ∃ n, fuel = n + 1 := ⟨fuel - 1, by simp at hfuel; omega⟩
  rw [List.map_cons, List.cons_append,
    scanValue_eq_scanNumber (skip_append_cons hbefore (isSpace_of_number hc) _) hc,
    ← List.cons_append, ← List.map_cons, scanNumber_append h hrest]
  rfl

theorem scanValue_skip (fuel : Nat) (s : List Symbol) :
    scanValue fuel (skip s) = scanValue fuel s := by
  cases fuel with
  | zero => rfl
  | succ fuel => rw [scanValue, scanValue, skip_skip]

theorem scanItems_skip (fuel : Nat) (s : List Symbol) :
    scanItems fuel (skip s) = scanItems fuel s := by
  cases fuel with
  | zero => rfl
  | succ fuel => rw [scanItems, scanItems, scanValue_skip]

theorem scanMembers_skip (fuel : Nat) (s : List Symbol) :
    scanMembers fuel (skip s) = scanMembers fuel s := by
  cases fuel with
  | zero => rfl
  | succ fuel => rw [scanMembers, scanMembers, skip_skip]

/-- A piece is scanned up to the mark behind it. -/
theorem Piece.scanValue_append {p : Piece} (hspaced : p.Spaced) (hscans : Scans p.value p.node)
    {fuel : Nat} (hfuel : 2 * p.symbols.length ≤ fuel) {c : Char} (hc : goesOn c = false)
    (rest : List Symbol) :
    scanValue fuel (p.symbols ++ some c :: rest) = some (p.node, p.after ++ some c :: rest) := by
  simp only [symbols, List.length_append] at hfuel
  rw [symbols, List.append_assoc, List.append_assoc]
  exact hscans fuel _ _ hspaced.before (by omega) (stops_append hspaced.after (stops_cons hc rest))

/-- In front of a member stands nothing but blanks. -/
theorem Entry.skip_append {e : Entry} (hspaced : e.Spaced) (rest : List Symbol) :
    skip (e.symbols ++ rest)
      = some '\"' ::
        (e.name ++ some '\"' :: (e.between ++ some ':' :: (e.piece.symbols ++ rest))) := by
  simp only [symbols, List.append_assoc, List.cons_append]
  exact skip_append_cons hspaced.before rfl _

theorem Entry.length_piece (e : Entry) : 2 * e.piece.symbols.length ≤ 2 * e.symbols.length := by
  simp only [symbols, List.length_append, List.length_cons]
  omega

theorem row_singleton (part : List Symbol) : row [part] = part := by simp [row, List.intercalate]

theorem row_cons_cons (part next : List Symbol) (more : List (List Symbol)) :
    row (part :: next :: more) = part ++ some ',' :: row (next :: more) := by
  simp [row, List.intercalate]

/-- The values of an array are scanned one after the other. -/
theorem scanItems_row {p : Piece} {more : List Piece} (hspaced : ∀ q ∈ p :: more, q.Spaced)
    (hscans : ∀ q ∈ p :: more, Scans q.value q.node) (fuel : Nat)
    (hfuel : 2 * (row ((p :: more).map Piece.symbols)).length < fuel) (rest : List Symbol) :
    scanItems fuel (row ((p :: more).map Piece.symbols) ++ some ']' :: rest)
      = some ((p :: more).map Piece.node, rest) := by
  obtain ⟨fuel, rfl⟩ : ∃ n, fuel = n + 1 := ⟨fuel - 1, by omega⟩
  have hp := hspaced p List.mem_cons_self
  induction more generalizing p fuel with
  | nil =>
    rw [List.map_singleton, row_singleton] at hfuel ⊢
    rw [scanItems, p.scanValue_append hp (hscans p List.mem_cons_self) (by omega) rfl]
    simp only [skip_append_cons hp.after (c := ']') rfl]
    rfl
  | cons next more ih =>
    rw [List.map_cons, List.map_cons, row_cons_cons, ← List.map_cons] at hfuel ⊢
    simp only [List.length_append, List.length_cons] at hfuel
    obtain ⟨fuel, rfl⟩ : ∃ n, fuel = n + 1 := ⟨fuel - 1, by omega⟩
    rw [List.append_assoc, List.cons_append, scanItems,
      p.scanValue_append hp (hscans p List.mem_cons_self) (by omega) rfl]
    simp only [skip_append_cons hp.after (c := ',') rfl]
    rw [ih (fun q hq => hspaced q (List.mem_cons_of_mem p hq))
      (fun q hq => hscans q (List.mem_cons_of_mem p hq)) fuel (by omega)
      (hspaced next (List.mem_cons_of_mem p List.mem_cons_self))]
    rfl

/-- A member that another one follows is scanned. -/
theorem scanMembers_next {e : Entry} (hspaced : e.Spaced)
    (hscans : Scans e.piece.value e.piece.node) {fuel : Nat}
    (hfuel : 2 * e.symbols.length ≤ fuel) (rest : List Symbol) :
    scanMembers (fuel + 1) (e.symbols ++ some ',' :: rest)
      = (scanMembers fuel rest).map fun r => (e.member :: r.1, r.2) := by
  rw [scanMembers, e.skip_append hspaced]
  simp only [scanString_append hspaced.name, skip_append_cons hspaced.between (c := ':') rfl,
    e.piece.scanValue_append hspaced.piece hscans (e.length_piece.trans hfuel) (c := ',') rfl,
    skip_append_cons hspaced.piece.after (c := ',') rfl]
  rfl

/-- The last member is scanned. -/
theorem scanMembers_last {e : Entry} (hspaced : e.Spaced)
    (hscans : Scans e.piece.value e.piece.node) {fuel : Nat}
    (hfuel : 2 * e.symbols.length ≤ fuel) (rest : List Symbol) :
    scanMembers (fuel + 1) (e.symbols ++ some '\x7d' :: rest) = some ([e.member], rest) := by
  rw [scanMembers, e.skip_append hspaced]
  simp only [scanString_append hspaced.name, skip_append_cons hspaced.between (c := ':') rfl,
    e.piece.scanValue_append hspaced.piece hscans (e.length_piece.trans hfuel) (c := '\x7d') rfl,
    skip_append_cons hspaced.piece.after (c := '\x7d') rfl]
  rfl

/-- The members of an object are scanned one after the other. -/
theorem scanMembers_entries {e : Entry} {more : List Entry} (hspaced : ∀ q ∈ e :: more, q.Spaced)
    (hscans : ∀ q ∈ e :: more, Scans q.piece.value q.piece.node) (fuel : Nat)
    (hfuel : 2 * (row ((e :: more).map Entry.symbols)).length < fuel) (rest : List Symbol) :
    scanMembers fuel (row ((e :: more).map Entry.symbols) ++ some '\x7d' :: rest)
      = some ((e :: more).map Entry.member, rest) := by
  obtain ⟨fuel, rfl⟩ : ∃ n, fuel = n + 1 := ⟨fuel - 1, by omega⟩
  have he := hspaced e List.mem_cons_self
  have hvalue := hscans e List.mem_cons_self
  induction more generalizing e fuel with
  | nil =>
    rw [List.map_singleton, row_singleton] at hfuel ⊢
    exact scanMembers_last he hvalue (by omega) rest
  | cons next more ih =>
    have hnext : next ∈ e :: next :: more := List.mem_cons_of_mem e List.mem_cons_self
    rw [List.map_cons, List.map_cons, row_cons_cons, ← List.map_cons] at hfuel ⊢
    simp only [List.length_append, List.length_cons] at hfuel
    obtain ⟨fuel, rfl⟩ : ∃ n, fuel = n + 1 := ⟨fuel - 1, by omega⟩
    rw [List.append_assoc, List.cons_append, scanMembers_next he hvalue (by omega),
      ih (fun q hq => hspaced q (List.mem_cons_of_mem e hq))
        (fun q hq => hscans q (List.mem_cons_of_mem e hq)) fuel (by omega)
        (hspaced next hnext) (hscans next hnext)]
    rfl

theorem word?_append (word : List Char) (rest : List Symbol) :
    word? word (word.map some ++ rest) = some rest := by
  induction word with
  | nil => rfl
  | cons c word ih => rw [List.map_cons, List.cons_append, word?, if_pos rfl, ih]

/-- There is fuel for what has a symbol. -/
theorem scans_of_succ {value : List Symbol} (hlen : 0 < value.length)
    (h : ∀ (fuel : Nat) (before rest : List Symbol), Blank before → 2 * value.length ≤ fuel + 1 →
      Stops goesOn rest → scanValue (fuel + 1) (before ++ (value ++ rest)) = some (node, rest)) :
    Scans value node := by
  intro fuel before rest hbefore hfuel hrest
  obtain ⟨fuel, rfl⟩ : ∃ n, fuel = n + 1 := ⟨fuel - 1, by omega⟩
  exact h fuel before rest hbefore hfuel hrest

/-- A word is scanned as what it stands for. -/
theorem scans_word (c : Char) (word : List Char) {whole : List Char} (hwhole : whole = c :: word)
    (hc : isSpace (some c) = false)
    (hscan : ∀ (fuel : Nat) (s rest : List Symbol), skip s = some c :: rest →
      scanValue (fuel + 1) s = (word? word rest).map fun rest => (node, rest)) :
    Scans (whole.map some) node := by
  subst hwhole
  refine scans_of_succ (by simp) fun fuel before rest hbefore _ _ => ?_
  rw [List.map_cons, List.cons_append, hscan fuel _ _ (skip_append_cons hbefore hc _),
    word?_append]
  rfl

/-- Behind the bracket of an array that is not empty stands no closing bracket. -/
theorem skip_row {p : Piece} {more : List Piece} (hspaced : ∀ q ∈ p :: more, q.Spaced)
    (hvalue : ∀ q ∈ p :: more, Denotes q.value q.node) (rest : List Symbol) :
    ∃ c t, skip (row ((p :: more).map Piece.symbols) ++ rest) = some c :: t ∧ c ≠ ']' := by
  have hp := hspaced p List.mem_cons_self
  obtain ⟨c, t, hcons, hspace, hc⟩ := (hvalue p List.mem_cons_self).exists_cons
  obtain ⟨tail, hrow⟩ : ∃ tail, row ((p :: more).map Piece.symbols) = p.symbols ++ tail := by
    cases more with
    | nil => exact ⟨[], by rw [List.map_singleton, row_singleton, List.append_nil]⟩
    | cons next more => exact ⟨_, by rw [List.map_cons, List.map_cons, row_cons_cons]⟩
  refine ⟨c, t ++ (p.after ++ (tail ++ rest)), ?_, hc⟩
  rw [hrow, Piece.symbols, hcons]
  simp only [List.append_assoc, List.cons_append]
  exact skip_append_cons hp.before hspace _

/-- Behind the brace of an object that is not empty stands a quotation mark. -/
theorem skip_entries {e : Entry} {more : List Entry} (he : e.Spaced) (rest : List Symbol) :
    ∃ t, skip (row ((e :: more).map Entry.symbols) ++ rest) = some '\"' :: t := by
  cases more with
  | nil => exact ⟨_, by rw [List.map_singleton, row_singleton, e.skip_append he]⟩
  | cons next more =>
    exact ⟨_, by rw [List.map_cons, List.map_cons, row_cons_cons, List.append_assoc,
      e.skip_append he]⟩

/-- **What denotes a value is scanned as that value.** -/
theorem Denotes.scans {value : List Symbol} (h : Denotes value node) : Scans value node := by
  induction h with
  | null =>
    exact scans_word 'n' "ull".toList rfl rfl fun fuel s rest hs => by
      rw [scanValue, hs]
      rfl
  | yes =>
    exact scans_word 't' "rue".toList rfl rfl fun fuel s rest hs => by
      rw [scanValue, hs]
      rfl
  | no =>
    exact scans_word 'f' "alse".toList rfl rfl fun fuel s rest hs => by
      rw [scanValue, hs]
      rfl
  | number h => exact scans_number h
  | string h =>
    refine scans_of_succ (by simp) fun fuel before rest hbefore hfuel hrest => ?_
    rw [List.append_assoc, List.cons_append, scanValue, skip_append_cons hbefore rfl]
    simp only [List.cons_append, List.nil_append, scanString_append h]
    rfl
  | emptyArray h =>
    refine scans_of_succ (by simp) fun fuel before rest hbefore hfuel hrest => ?_
    rw [List.append_assoc, List.cons_append, scanValue, skip_append_cons hbefore rfl]
    simp only [List.cons_append, List.nil_append, skip_append_cons h (c := ']') rfl]
  | array hspaced hvalue ih =>
    refine scans_of_succ (by simp) fun fuel before rest hbefore hfuel hrest => ?_
    have hscan := scanItems_row hspaced ih fuel (by simp at hfuel ⊢; omega) rest
    obtain ⟨c, t, hskip, hc⟩ := skip_row hspaced hvalue (some ']' :: rest)
    rw [List.append_assoc, List.cons_append, scanValue, skip_append_cons hbefore rfl]
    rw [← scanItems_skip, hskip] at hscan
    simp only [List.cons_append, List.nil_append, hskip]
    split
    · rename_i heq
      exact absurd (Option.some.inj (List.cons.inj heq).1) hc
    · rw [hscan]
      rfl
  | emptyObject h =>
    refine scans_of_succ (by simp) fun fuel before rest hbefore hfuel hrest => ?_
    rw [List.append_assoc, List.cons_append, scanValue, skip_append_cons hbefore rfl]
    simp only [List.cons_append, List.nil_append, skip_append_cons h (c := '\x7d') rfl]
  | object hspaced hvalue ih =>
    refine scans_of_succ (by simp) fun fuel before rest hbefore hfuel hrest => ?_
    have hscan := scanMembers_entries hspaced ih fuel (by simp at hfuel ⊢; omega) rest
    obtain ⟨t, hskip⟩ := skip_entries (hspaced _ List.mem_cons_self) (some '\x7d' :: rest)
    rw [List.append_assoc, List.cons_append, scanValue, skip_append_cons hbefore rfl]
    rw [← scanMembers_skip, hskip] at hscan
    simp only [List.cons_append, List.nil_append, hskip]
    change (scanMembers fuel (some '\"' :: t)).map _ = _
    rw [hscan]
    rfl

/-! ### What is scanned denotes the value -/

theorem word?_eq_some {word : List Char} (h : word? word s = some rest) :
    s = word.map some ++ rest := by
  induction word generalizing s with
  | nil => exact Option.some.inj h
  | cons c word ih =>
    cases s with
    | nil => cases h
    | cons symbol s =>
      rw [word?] at h
      split at h
      · rename_i hc
        rw [hc, ih h]
        rfl
      · cases h

/-- Behind a word stands what is left. -/
theorem eq_of_map_word? {word : List Char} {value : Node}
    (h : (word? word s).map (fun rest => (value, rest)) = some (node, rest)) :
    node = value ∧ s = word.map some ++ rest := by
  obtain ⟨more, hword, heq⟩ := Option.map_eq_some_iff.mp h
  obtain ⟨rfl, rfl⟩ := Prod.mk.inj heq
  exact ⟨rfl, word?_eq_some hword⟩

/-- Symbols begin with a value, which may have blanks in front of it. -/
def BeginsWithValue (s : List Symbol) (node : Node) (rest : List Symbol) : Prop :=
  ∃ before value, Blank before ∧ Denotes value node ∧ s = before ++ (value ++ rest)

/-- Symbols begin with the values of an array and its closing bracket. -/
def BeginsWithItems (s : List Symbol) (nodes : List Node) (rest : List Symbol) : Prop :=
  ∃ p more, (∀ q ∈ p :: more, q.Spaced) ∧ (∀ q ∈ p :: more, Denotes q.value q.node) ∧
    nodes = (p :: more).map Piece.node ∧
    s = row ((p :: more).map Piece.symbols) ++ some ']' :: rest

/-- Symbols begin with the members of an object and its closing brace. -/
def BeginsWithMembers (s : List Symbol) (members : List (List Symbol × Node))
    (rest : List Symbol) : Prop :=
  ∃ e more, (∀ q ∈ e :: more, q.Spaced) ∧
    (∀ q ∈ e :: more, Denotes q.piece.value q.piece.node) ∧
    members = (e :: more).map Entry.member ∧
    s = row ((e :: more).map Entry.symbols) ++ some '\x7d' :: rest

/-- What is scanned with so much fuel has its grammar. -/
structure Sound (fuel : Nat) : Prop where
  /-- A value. -/
  value {s rest : List Symbol} {node : Node} (h : scanValue fuel s = some (node, rest)) :
    BeginsWithValue s node rest
  /-- The values of an array. -/
  items {s rest : List Symbol} {nodes : List Node} (h : scanItems fuel s = some (nodes, rest)) :
    BeginsWithItems s nodes rest
  /-- The members of an object. -/
  members {s rest : List Symbol} {members : List (List Symbol × Node)}
    (h : scanMembers fuel s = some (members, rest)) : BeginsWithMembers s members rest

namespace Sound

variable {fuel : Nat}

/-- A value is scanned at the first symbol that is no blank. -/
theorem value_succ (hsound : Sound fuel) (h : scanValue (fuel + 1) s = some (node, rest)) :
    ∃ value, Denotes value node ∧ skip s = value ++ rest := by
  rw [scanValue] at h
  split at h
  · rename_i heq
    obtain ⟨l, hl, rfl⟩ := exists_of_map_scanned Node.string h
    obtain ⟨hliteral, rfl⟩ := isLiteral_of_scanString hl
    exact ⟨_, .string hliteral, by rw [heq]; simp⟩
  · rename_i more heq
    obtain ⟨b, hb, hmore⟩ := exists_blank_append_skip more
    split at h
    · rename_i hclose
      obtain ⟨rfl, rfl⟩ := Prod.mk.inj (Option.some.inj h)
      exact ⟨_, .emptyArray hb, by rw [heq, hmore, hclose]; simp⟩
    · rw [scanItems_skip] at h
      obtain ⟨nodes, hitems, rfl⟩ := exists_of_map_scanned Node.array h
      obtain ⟨p, pieces, hspaced, hvalue, rfl, rfl⟩ := hsound.items hitems
      exact ⟨_, .array hspaced hvalue, by rw [heq]; simp⟩
  · rename_i more heq
    obtain ⟨b, hb, hmore⟩ := exists_blank_append_skip more
    split at h
    · rename_i hclose
      obtain ⟨rfl, rfl⟩ := Prod.mk.inj (Option.some.inj h)
      exact ⟨_, .emptyObject hb, by rw [heq, hmore, hclose]; simp⟩
    · rw [scanMembers_skip] at h
      obtain ⟨members, hmembers, rfl⟩ := exists_of_map_scanned Node.object h
      obtain ⟨e, entries, hspaced, hvalue, rfl, rfl⟩ := hsound.members hmembers
      exact ⟨_, .object hspaced hvalue, by rw [heq]; simp⟩
  · rename_i more heq
    obtain ⟨rfl, hword⟩ := eq_of_map_word? h
    exact ⟨_, .null, by rw [heq, hword]; rfl⟩
  · rename_i more heq
    obtain ⟨rfl, hword⟩ := eq_of_map_word? h
    exact ⟨_, .yes, by rw [heq, hword]; rfl⟩
  · rename_i more heq
    obtain ⟨rfl, hword⟩ := eq_of_map_word? h
    exact ⟨_, .no, by rw [heq, hword]; rfl⟩
  · obtain ⟨l, hl, rfl⟩ := exists_of_map_scanned Node.number h
    obtain ⟨hnumber, heq⟩ := isNumber_of_scanNumber hl
    exact ⟨_, .number hnumber, heq⟩

/-- Behind the first value of an array stands a comma and the others, or its bracket. -/
theorem items_succ (hsound : Sound fuel) {nodes : List Node}
    (h : scanItems (fuel + 1) s = some (nodes, rest)) : BeginsWithItems s nodes rest := by
  rw [scanItems] at h
  split at h
  · cases h
  · rename_i node t hscan
    obtain ⟨before, value, hbefore, hvalue, rfl⟩ := hsound.value hscan
    obtain ⟨after, hafter, ht⟩ := exists_blank_append_skip t
    -- The first value with the blanks on both sides of it.
    let p : Piece := ⟨before, value, after, node⟩
    have hp : p.Spaced := ⟨hbefore, hafter⟩
    split at h
    · rename_i t' hcomma
      obtain ⟨nodes, hitems, rfl⟩ := exists_of_map_scanned (node :: ·) h
      obtain ⟨next, more, hspaced, hvalues, rfl, rfl⟩ := hsound.items hitems
      refine ⟨p, next :: more, ?_, ?_, rfl, ?_⟩
      · exact List.forall_mem_cons.mpr ⟨hp, hspaced⟩
      · exact List.forall_mem_cons.mpr ⟨hvalue, hvalues⟩
      · rw [List.map_cons, List.map_cons, row_cons_cons, ht, hcomma]
        simp [p, Piece.symbols]
    · rename_i t' hclose
      obtain ⟨rfl, rfl⟩ := Prod.mk.inj (Option.some.inj h)
      refine ⟨p, [], ?_, ?_, rfl, ?_⟩
      · exact List.forall_mem_singleton.mpr hp
      · exact List.forall_mem_singleton.mpr hvalue
      · rw [List.map_singleton, row_singleton, ht, hclose]
        simp [p, Piece.symbols]
    · cases h

/-- Behind the first member of an object stands a comma and the others, or its brace. -/
theorem members_succ (hsound : Sound fuel) {members : List (List Symbol × Node)}
    (h : scanMembers (fuel + 1) s = some (members, rest)) : BeginsWithMembers s members rest := by
  obtain ⟨lead, hlead, hs⟩ := exists_blank_append_skip s
  rw [scanMembers] at h
  split at h
  rotate_left
  · cases h
  rename_i t hquote
  split at h
  · cases h
  rename_i name t' hname
  obtain ⟨hliteral, rfl⟩ := isLiteral_of_scanString hname
  obtain ⟨between, hbetween, ht'⟩ := exists_blank_append_skip t'
  split at h
  rotate_left
  · cases h
  rename_i t'' hcolon
  split at h
  · cases h
  rename_i node t hscan
  obtain ⟨before, value, hbefore, hvalue, rfl⟩ := hsound.value hscan
  obtain ⟨after, hafter, ht⟩ := exists_blank_append_skip t
  -- The first member, with the blanks around its name and its value.
  let e : Entry := ⟨lead, name, between, ⟨before, value, after, node⟩⟩
  have he : e.Spaced := ⟨hlead, hliteral, hbetween, hbefore, hafter⟩
  have hs : s = e.symbols ++ skip t := by
    rw [hs, hquote, ht', hcolon]
    conv_lhs => rw [ht]
    simp [e, Entry.symbols, Piece.symbols]
  split at h
  · rename_i t' hcomma
    obtain ⟨members, hmembers, rfl⟩ := exists_of_map_scanned ((name, node) :: ·) h
    obtain ⟨next, more, hspaced, hvalues, rfl, rfl⟩ := hsound.members hmembers
    refine ⟨e, next :: more, ?_, ?_, rfl, ?_⟩
    · exact List.forall_mem_cons.mpr ⟨he, hspaced⟩
    · exact List.forall_mem_cons.mpr ⟨hvalue, hvalues⟩
    · rw [List.map_cons, List.map_cons, row_cons_cons, hs, hcomma]
      simp
  · rename_i t' hclose
    obtain ⟨rfl, rfl⟩ := Prod.mk.inj (Option.some.inj h)
    refine ⟨e, [], ?_, ?_, rfl, ?_⟩
    · exact List.forall_mem_singleton.mpr he
    · exact List.forall_mem_singleton.mpr hvalue
    · rw [List.map_singleton, row_singleton, hs, hclose]
  · cases h

end Sound

/-- **What is scanned denotes the value.** -/
theorem sound (fuel : Nat) : Sound fuel := by
  induction fuel with
  | zero => exact ⟨nofun, nofun, nofun⟩
  | succ fuel ih =>
    refine ⟨fun {s rest node} h => ?_, ih.items_succ, ih.members_succ⟩
    obtain ⟨before, hbefore, hs⟩ := exists_blank_append_skip s
    obtain ⟨value, hvalue, heq⟩ := ih.value_succ h
    exact ⟨before, value, hbefore, hvalue, by rw [hs, heq]⟩

/-- **Symbols are read as a value if and only if they denote it**, with blanks around it and
between its marks. -/
theorem parse?_eq_some_iff : parse? s = some node ↔ Document s node := by
  constructor
  · intro h
    rw [parse?] at h
    split at h
    · rename_i node t hscan
      obtain ⟨before, value, hbefore, hvalue, rfl⟩ := (sound _).value hscan
      obtain ⟨after, hafter, ht⟩ := exists_blank_append_skip t
      split at h
      · rename_i hend
        rw [List.isEmpty_iff.mp hend, List.append_nil] at ht
        obtain rfl := Option.some.inj h
        refine ⟨⟨before, value, after, _⟩, ⟨hbefore, hafter⟩, hvalue, ?_, rfl⟩
        rw [Piece.symbols, ht, List.append_assoc]
      · cases h
    · cases h
  · rintro ⟨p, hspaced, hvalue, rfl, rfl⟩
    have hscan := hvalue.scans (2 * p.symbols.length + 2) p.before p.after hspaced.before
      (by simp only [Piece.symbols, List.length_append]; omega)
      (by simpa using stops_append hspaced.after (stops_nil goesOn))
    have hend : skip p.after = [] := List.dropWhile_eq_nil_iff.mpr hspaced.after
    rw [← List.append_assoc] at hscan
    change scanValue _ p.symbols = _ at hscan
    rw [parse?, hscan]
    simp [hend]

end VaultTokens.Json
