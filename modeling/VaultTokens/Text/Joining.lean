import VaultTokens.Text.CombiningClass
import VaultTokens.Text.Mark

/-!
# Joining letters

Letters of cursive scripts, such as Arabic, join the letters beside them, whatever marks are in
between. Two invisible characters act on that: one keeps letters apart that would join, the other
joins letters that would not. They say nothing where nothing can join or where no vowel was taken
away, and then text is better without them.

The tables follow the property `Joining_Type`. Code points without a character count as what is
around them.
-/

namespace VaultTokens.Text

/-- The first and last character of each run that joins the character behind it. -/
def joiningNext : List (Nat × Nat) :=
  [(0x620, 0x620), (0x626, 0x626), (0x628, 0x628), (0x62a, 0x62e), (0x633, 0x63f), (0x641, 0x647),
   (0x649, 0x64a), (0x66e, 0x66f), (0x679, 0x687), (0x69a, 0x6bf), (0x6c1, 0x6c2), (0x6cc, 0x6cc),
   (0x6ce, 0x6ce), (0x6d0, 0x6d1), (0x6fa, 0x6fc), (0x6ff, 0x6ff), (0x712, 0x714), (0x71a, 0x71d),
   (0x71f, 0x727), (0x729, 0x729), (0x72b, 0x72b), (0x72d, 0x72e), (0x74e, 0x758), (0x75c, 0x76a),
   (0x76d, 0x770), (0x772, 0x772), (0x775, 0x777), (0x77a, 0x77f), (0x7ca, 0x7ea), (0x841, 0x845),
   (0x848, 0x848), (0x84a, 0x853), (0x855, 0x855), (0x860, 0x860), (0x862, 0x865), (0x868, 0x868),
   (0x886, 0x886), (0x889, 0x88d), (0x88f, 0x8a9), (0x8af, 0x8b0), (0x8b3, 0x8b8), (0x8ba, 0x8c8),
   (0x1807, 0x1807), (0x1820, 0x1878), (0x1887, 0x18aa), (0xa840, 0xa872), (0x10ac0, 0x10ac4),
   (0x10acd, 0x10acd), (0x10ad3, 0x10adc), (0x10ade, 0x10ae0), (0x10aeb, 0x10aee),
   (0x10b80, 0x10b80), (0x10b82, 0x10b82), (0x10b86, 0x10b88), (0x10b8a, 0x10b8b),
   (0x10b8d, 0x10b8d), (0x10b90, 0x10b90), (0x10bad, 0x10bae), (0x10d00, 0x10d21),
   (0x10d23, 0x10d23), (0x10ec3, 0x10ec4), (0x10ec6, 0x10ec7), (0x10f30, 0x10f32),
   (0x10f34, 0x10f44), (0x10f51, 0x10f53), (0x10f70, 0x10f73), (0x10f76, 0x10f81),
   (0x10fb0, 0x10fb0), (0x10fb2, 0x10fb3), (0x10fb8, 0x10fb8), (0x10fbb, 0x10fbc),
   (0x10fbe, 0x10fbf), (0x10fc1, 0x10fc1), (0x10fc4, 0x10fc4), (0x10fca, 0x10fcb),
   (0x1e922, 0x1e943)]

/-- The first and last character of each run that joins the character before it. -/
def joiningPrevious : List (Nat × Nat) :=
  [(0x620, 0x620), (0x622, 0x63f), (0x641, 0x64a), (0x66e, 0x673), (0x679, 0x6d3), (0x6d5, 0x6d5),
   (0x6ee, 0x6ef), (0x6fa, 0x6fc), (0x6ff, 0x6ff), (0x710, 0x77f), (0x7ca, 0x7ea), (0x840, 0x858),
   (0x860, 0x860), (0x862, 0x865), (0x867, 0x882), (0x886, 0x886), (0x889, 0x8ac), (0x8ae, 0x8c8),
   (0x1807, 0x1807), (0x1820, 0x1878), (0x1887, 0x18aa), (0xa840, 0xa871), (0x10ac0, 0x10ac5),
   (0x10ac7, 0x10ac7), (0x10ac9, 0x10aca), (0x10ace, 0x10ad6), (0x10ad8, 0x10ae1),
   (0x10ae4, 0x10aef), (0x10b80, 0x10b91), (0x10ba9, 0x10bae), (0x10d01, 0x10d23),
   (0x10ec2, 0x10ec4), (0x10ec6, 0x10ec7), (0x10f30, 0x10f44), (0x10f51, 0x10f54),
   (0x10f70, 0x10f81), (0x10fb0, 0x10fb0), (0x10fb2, 0x10fb6), (0x10fb8, 0x10fbf),
   (0x10fc1, 0x10fc4), (0x10fc9, 0x10fca), (0x1e922, 0x1e943)]

/-- The character that keeps letters apart. -/
def nonJoiner : Char := '\u200c'

/-- The character that joins letters. -/
def joiner : Char := '\u200d'

/-- Whether a letter joins the one behind it. -/
def joinsNext (c : Char) : Bool :=
  joiningNext.any fun r => r.1 ≤ c.toNat && c.toNat ≤ r.2

/-- Whether a letter joins the one before it. -/
def joinsPrevious (c : Char) : Bool :=
  joiningPrevious.any fun r => r.1 ≤ c.toNat && c.toNat ≤ r.2

/-- Whether letters join across a character: it is a nonspacing mark, or the one letter that is
written like a mark. -/
def isTransparent (c : Char) : Bool := isNonspacingMark c || c.toNat = 0x1e94b

/-- Whether the last of some characters, given last one first, takes away a vowel. -/
def endsInVirama (before : List Char) : Bool :=
  before.head?.any fun c => combiningClass c = viramaClass

/-- Whether two letters would join across the place between them; the text before it is given last
character first. -/
def joinAcross (before behind : List Char) : Bool :=
  (before.dropWhile isTransparent).head?.any joinsNext &&
    (behind.dropWhile isTransparent).head?.any joinsPrevious

/-- Whether each joiner and non-joiner in a text says something; the text before it is given last
character first. -/
def joinersMatter (before : List Char) : List Char → Bool
  | [] => true
  | c :: rest =>
    (if c = nonJoiner then endsInVirama before || joinAcross before rest
      else if c = joiner then endsInVirama before
      else true) && joinersMatter (c :: before) rest

end VaultTokens.Text
