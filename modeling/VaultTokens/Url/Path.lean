import VaultTokens.Url.Percent

/-!
# Paths

The path of a URL is a list of segments, printed with a slash in front of each. It is never empty:
the bare slash is one empty segment. Two ways lead to a path.

A *written* path is read as it stands in a URL: a single dot names the directory itself, two dots
the one above, and neither is kept. A dot may be percent-encoded.

A path is *extended* by one segment at a time, taken as a name: a slash or a percent sign in it is
encoded, and a name of one or two dots is skipped. Tabs and line ends are dropped from a name
before it is written, so that what is left may again be one or two dots; then it is read like a
written one and followed by an empty segment.
-/

namespace VaultTokens.Url.Path

/-- Whether a segment names the directory itself. -/
def isDot (s : List Char) : Bool :=
  s = ['.'] || s = ['%', '2', 'e'] || s = ['%', '2', 'E']

/-- Whether a segment names the directory above. -/
def isDotDot (s : List Char) : Bool :=
  s.length ≤ 6 && (List.range (s.length + 1)).any fun n => isDot (s.take n) && isDot (s.drop n)

/-- A letter before a colon or a bar: the name of a drive. Nothing lies above a drive. -/
def isDrive (s : List Char) : Bool :=
  match s with
  | [c, d] => c.isAlpha && (d = ':' || d = '|')
  | _ => false

/-- The directory above. -/
def climb (segments : List (List Char)) : List (List Char) :=
  match segments.getLast? with
  | none => []
  | some last => if isDrive last then segments else segments.dropLast

/-- The directory that a segment leads to from another one. -/
def enter (above : List (List Char)) (s : List Char) : List (List Char) :=
  if isDotDot s then climb above else if isDot s then above else above ++ [s]

/-- A path behind the directories `above`, segment by segment. -/
def written (above : List (List Char)) : List (List Char) → List (List Char)
  | [] => above
  | [last] => if isDotDot last || isDot last then enter above last ++ [[]] else above ++ [last]
  | s :: rest => written (enter above s) rest

/-- Whether a character is a slash of either kind. -/
def isSlash (c : Char) : Bool := c = '/' || c = '\\'

/-- The segments of a text, each ended by a character of some kind. -/
def split (ends : Char → Bool) : List Char → List (List Char)
  | [] => [[]]
  | c :: rest =>
    if ends c then [] :: split ends rest
    else
      match split ends rest with
      | [] => [[c]]
      | s :: more => (c :: s) :: more

/-- The segments of a text, encoded. -/
def segments (ends : Char → Bool) (text : List Char) : List (List Char) :=
  (split ends text).map (Percent.encode Percent.path)

/-- The path that a URL's text writes behind its first slash, where characters of some kind end the
segments. -/
def ofCharsBy (ends : Char → Bool) (text : List Char) : List (List Char) :=
  written [] (segments ends text)

/-- The path on a server that a URL's text writes behind its first slash. -/
def ofChars (text : List Char) : List (List Char) := ofCharsBy isSlash text

/-- Whether a character is dropped wherever it stands in a URL. -/
def isDropped (c : Char) : Bool := c = '\t' || c = '\n' || c = '\r'

/-- The directories that a further segment is put behind; behind the bare slash there are none. -/
def directories (segments : List (List Char)) : List (List Char) :=
  if segments = [[]] then [] else segments

/-- A path with one more name behind it. -/
def extend (segments : List (List Char)) (name : List Char) : List (List Char) :=
  if name = ['.'] ∨ name = ['.', '.'] then segments
  else
    written (directories segments) [Percent.encode Percent.segment (name.filter (!isDropped ·))]

/-- A path with more names behind it. -/
def extendAll (segments : List (List Char)) (names : List (List Char)) : List (List Char) :=
  names.foldl extend segments

/-- A path without an empty last segment, except the bare slash. -/
def popEmpty (segments : List (List Char)) : List (List Char) :=
  if segments.length ≤ 1 then segments
  else if segments.getLast? = some [] then segments.dropLast else segments

/-- The names between the slashes of a text. -/
def names (text : List Char) : List (List Char) :=
  (text.splitOn '/').filter fun s => !s.isEmpty

/-- A path with a slash in front of each segment. -/
def render (segments : List (List Char)) : List Char :=
  segments.flatMap fun s => '/' :: s

@[simp]
theorem render_append (a b : List (List Char)) : render (a ++ b) = render a ++ render b := by
  simp [render]

end VaultTokens.Url.Path
