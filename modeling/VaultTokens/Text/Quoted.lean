import VaultTokens.Text.Extending
import VaultTokens.Text.Unprintable

/-!
# Quoted text

Text between quotation marks, as it is shown to a person: marks and backslashes are escaped, line
ends and tabs have short escapes, and a character that cannot be seen on its own is shown by its
number in hexadecimal digits.

Main statement: `quote_of_plain` says that text without such characters is only put between marks.
-/

namespace VaultTokens.Text

/-- A character by its number: `\u{200b}`. -/
def byNumber (c : Char) : List Char :=
  "\\u\x7b".toList ++ Nat.toDigits 16 c.toNat ++ ['\x7d']

/-- A character as it is written inside quotation marks. -/
def quoteChar (c : Char) : List Char :=
  if c = '\x00' then ['\\', '0']
  else if c = '\t' then ['\\', 't']
  else if c = '\r' then ['\\', 'r']
  else if c = '\n' then ['\\', 'n']
  else if c = '\"' then ['\\', '\"']
  else if c = '\\' then ['\\', '\\']
  else if isExtending c || isUnprintable c then byNumber c
  else [c]

/-- Text between quotation marks. -/
def quote (s : String) : String :=
  String.ofList ('\"' :: s.toList.flatMap quoteChar ++ ['\"'])

/-- Whether a character stands for itself inside quotation marks. -/
def isPlain (c : Char) : Bool :=
  c ≠ '\x00' && c ≠ '\t' && c ≠ '\r' && c ≠ '\n' && c ≠ '\"' && c ≠ '\\' &&
    !isExtending c && !isUnprintable c

theorem quoteChar_of_isPlain {c : Char} (h : isPlain c = true) : quoteChar c = [c] := by
  simp only [isPlain, Bool.and_eq_true, Bool.not_eq_true', ne_eq,
    decide_not] at h
  obtain ⟨⟨⟨⟨⟨⟨⟨h0, ht⟩, hr⟩, hn⟩, hq⟩, hb⟩, he⟩, hu⟩ := h
  simp_all [quoteChar]

theorem quote_of_plain {s : String} (h : ∀ c ∈ s.toList, isPlain c = true) :
    quote s = String.ofList ('\"' :: s.toList ++ ['\"']) := by
  have : s.toList.flatMap quoteChar = s.toList := by
    generalize s.toList = cs at h
    induction cs with
    | nil => rfl
    | cons c cs ih =>
      rw [List.flatMap_cons, quoteChar_of_isPlain (h c List.mem_cons_self),
        ih fun d hd => h d (List.mem_cons_of_mem _ hd)]
      rfl
  rw [quote, this]

end VaultTokens.Text
