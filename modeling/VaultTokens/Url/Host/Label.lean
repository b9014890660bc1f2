import VaultTokens.Text.Composed
import VaultTokens.Text.Direction
import VaultTokens.Url.Host.Counterpart
import VaultTokens.Url.Host.Punycode

/-!
# Labels of names

The parts of a host's name between its dots. A label of ASCII stands for itself, unless it begins
with `xn--`: then it stands for text of any script, which has to be text that a name can hold, in
the form in which names are compared. A label that could be read in two ways, or that would look
like another one, is refused.

A name that is not of ASCII is written with such labels: every character is replaced by what it
stands for, the text is composed, and each label that is still beyond ASCII is put into Punycode.

Where one label is written from right to left, every label has to go one way, so that they are read
in their order.

Main statements: `inAscii?_of_ascii` (a name of ASCII is left as it is) and `isLegible_of_plain`
(names whose labels stand for themselves are admitted).
-/

namespace VaultTokens.Url.Host

open VaultTokens.Text

/-- What a label begins with that stands for other text. -/
def mark : List Char := "xn--".toList

/-- Whether a label may stand for a text. -/
def isWritable (text : List Char) : Bool :=
  text.length ≤ 1000 && text.all (fun c => c.toNat < 128 || isAdmitted c) && isComposed text &&
    !(text.head?.any isMark) && !(mark.isPrefixOf text) && joinersMatter [] text

/-- The text that a label stands for, if there is one. The label is in lower case. -/
def meaning? (label : List Char) : Option (List Char) :=
  if mark.isPrefixOf label then
    let code := label.drop mark.length
    if code.isEmpty || code.getLast? = some '-' || 2000 < code.length then none
    else (Punycode.decode? code).filter isWritable
  else some label

/-- The label that stands for a text. Longer text than a label may stand for is refused, and so is
what would look like such a label. -/
def label? (text : List Char) : Option (List Char) :=
  if text.all (·.toNat < 128) then some text
  else if 1000 < text.length || mark.isPrefixOf text then none
  else some (mark ++ Punycode.encode text)

/-- A name written with ASCII, if all of its characters stand for something. -/
def inAscii? (name : List Char) : Option (List Char) :=
  if name.all (·.toNat < 128) then some name
  else do
    let texts ← name.mapM counterpart?
    let labels ← ((composed texts.flatten).splitOn '.').mapM label?
    return ['.'].intercalate labels

/-- Whether the labels of a name stand for texts that can stand beside each other. -/
def isLegible (name : List Char) : Bool :=
  match (name.splitOn '.').mapM meaning? with
  | none => false
  | some texts => !(texts.any fun t => t.any isAgainst) || texts.all isOneWay

/-- A name of ASCII is left as it is, capitals included. -/
theorem inAscii?_of_ascii {name : List Char} (h : ∀ c ∈ name, c.toNat < 128) :
    inAscii? name = some name := by
  rw [inAscii?, if_pos]
  simpa using h

theorem meaning?_of_plain {label : List Char} (h : mark.isPrefixOf label = false) :
    meaning? label = some label := by
  simp [meaning?, h]

private theorem mapM_meaning?_of_plain {labels : List (List Char)}
    (h : ∀ l ∈ labels, mark.isPrefixOf l = false) : labels.mapM meaning? = some labels := by
  induction labels with
  | nil => rfl
  | cons l labels ih =>
    rw [List.mapM_cons, meaning?_of_plain (h l (List.mem_cons_self ..)),
      ih fun m hm => h m (List.mem_cons_of_mem _ hm)]
    rfl

/-- A name of ASCII whose labels stand for themselves is admitted. -/
theorem isLegible_of_plain {name : List Char}
    (hplain : ∀ l ∈ name.splitOn '.', mark.isPrefixOf l = false)
    (hascii : ∀ l ∈ name.splitOn '.', ∀ c ∈ l, c.toNat < 128) : isLegible name = true := by
  have hagainst : ((name.splitOn '.').any fun t => t.any isAgainst) = false := by
    rw [List.any_eq_false]
    intro l hl
    rw [Bool.not_eq_true, List.any_eq_false]
    intro c hc
    rw [isAgainst_of_lt (hascii l hl c hc)]
    exact Bool.false_ne_true
  rw [isLegible, mapM_meaning?_of_plain hplain]
  simp only [hagainst, Bool.not_false, Bool.true_or]

end VaultTokens.Url.Host
