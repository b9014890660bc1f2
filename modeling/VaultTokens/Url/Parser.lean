import VaultTokens.Url.Basic

/-!
# Reading URLs

From text to the parts of a URL. Blanks and control characters around the text are ignored, and so
are tabs and line ends anywhere in it; slashes and backslashes mean the same. Whatever the reader
does not admit in a part is percent-encoded there, except in the host and the port, where it is
refused.

Main statement: `readPort_ne_usual` (the usual port of a scheme is never kept).
-/

namespace VaultTokens.Url

/-- The text without control characters and spaces around it. -/
def strip (s : List Char) : List Char :=
  let outer (c : Char) : Bool := c.toNat ≤ 0x20
  ((s.dropWhile outer).reverse.dropWhile outer).reverse

/-- The scheme in front of the first colon, and what is behind it. -/
def readScheme (s : List Char) : Option (Scheme × List Char) :=
  let name := s.takeWhile (· ≠ ':')
  match s.dropWhile (· ≠ ':') with
  | [] => none
  | _ :: rest =>
    if name.map Char.toLower = "http".toList then some (.http, rest)
    else if name.map Char.toLower = "https".toList then some (.https, rest)
    else none

/-- Whether a character ends the path. -/
def endsPath (c : Char) : Bool := c = '?' || c = '#'

/-- Whether a character ends the part of a URL that names the server. -/
def endsServer (c : Char) : Bool := Path.isSlash c || endsPath c

/-- The text before the last at sign, if there is one, and the text behind it. -/
def splitCredentials (s : List Char) : Option (List Char) × List Char :=
  match s.reverse.dropWhile (· ≠ '@') with
  | [] => (none, s)
  | _ :: before => (some before.reverse, (s.reverse.takeWhile (· ≠ '@')).reverse)

/-- The host, which ends at a colon outside of brackets, and what is behind it. -/
def splitHost (bracketed : Bool) : List Char → List Char × List Char
  | [] => ([], [])
  | c :: rest =>
    if c = ':' ∧ bracketed = false then ([], c :: rest)
    else
      let inside := if c = '[' then true else if c = ']' then false else bracketed
      let (host, behind) := splitHost inside rest
      (c :: host, behind)

/-- The port behind the host: absent if it is not given or the usual one, refused if it is not a
number of at most sixteen bits. -/
def readPort (usual : Option Nat) (s : List Char) : Option (Option Nat) :=
  match s with
  | [] => some none
  | _ :: digits =>
    if digits.all Char.isDigit then
      let port := digits.foldl (fun acc c => acc * 10 + (c.toNat - 48)) 0
      if 65535 < port then none
      else if digits.isEmpty || some port = usual then some none
      else some (some port)
    else none

/-- Credentials, host and port of a server, if the host is admitted. -/
def readServer {Name : Type} (host? : List Char → Option Name) (usual : Option Nat)
    (s : List Char) : Option (Credentials × Name × Option Nat) := do
  let (credentials, server) := splitCredentials s
  let (host, port) := splitHost false server
  let host ← host? host
  let port ← readPort usual port
  return (Credentials.ofChars (credentials.getD []), host, port)

/-- The query in what is behind the path, encoded for a set. -/
def readQuery (set : Char → Bool) (s : List Char) : Option (List Char) :=
  match s.takeWhile (· ≠ '#') with
  | [] => none
  | _ :: query => some (Percent.encode set query)

/-- The fragment in what is behind the path, encoded. -/
def readFragment (s : List Char) : Option (List Char) :=
  match s.dropWhile (· ≠ '#') with
  | [] => none
  | _ :: fragment => some (Percent.encode Percent.fragment fragment)

/-- The text that is read: without the blanks around it, and without tabs and line ends. -/
def clean (text : String) : List Char := (strip text.toList).filter (!Path.isDropped ·)

/-- The URL that a text denotes. -/
def parse? (text : String) : Option Url := do
  let (scheme, rest) ← readScheme (clean text)
  let rest := rest.dropWhile Path.isSlash
  let (credentials, host, port) ←
    readServer Host.ofChars? (some scheme.port) (rest.takeWhile (!endsServer ·))
  let rest := rest.dropWhile (!endsServer ·)
  let behind := rest.dropWhile (!endsPath ·)
  return {
    scheme, credentials, host, port
    path := Path.ofChars ((rest.takeWhile (!endsPath ·)).drop 1)
    query := readQuery Percent.query behind
    fragment := readFragment behind }

/-- The usual port of a scheme is not kept. -/
theorem readPort_ne_usual {usual : Nat} {s : List Char} {port : Option Nat}
    (h : readPort (some usual) s = some port) : port ≠ some usual := by
  rintro rfl
  unfold readPort at h
  split at h
  · simp at h
  · simp only at h
    split at h
    · split at h
      · cases h
      · split at h
        · simp at h
        · rename_i hne
          simp only [Option.some.injEq] at h
          simp [h] at hne
    · cases h

end VaultTokens.Url
