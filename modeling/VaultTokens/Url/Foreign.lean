import VaultTokens.Url.Parser

/-!
# URLs of other schemes

URLs with a scheme other than `http` and `https`. No request is made to any of them; they are read
in order to be shown in the form that URLs have.

There are three kinds of schemes. Some name a server the way `http` does. The scheme `file` has a
path that may begin with a drive, and a host only where it is neither `localhost` nor in front of a
segment that is a drive. Any other scheme may name a host, which is kept as it is written, and a
path; text that does not begin with a slash is kept as a whole, without segments.

Main statements: `kind?_name` (no URL of a server is read this way) and `render_empty_segment` (a
path that begins with two slashes is not taken for a host).
-/

namespace VaultTokens.Url

/-- How the URLs of a scheme are read. -/
inductive Foreign.Kind where
  /-- The scheme names a server, which has a usual port. -/
  | served (port : Nat)
  /-- The scheme names files. -/
  | file
  /-- Nothing is known of the scheme. -/
  | other
  deriving DecidableEq

/-- Whose place a URL names. -/
structure Foreign.Authority where
  /-- The user name and the password. -/
  credentials : Credentials
  /-- The host as it is printed; empty if there is none. -/
  host : List Char
  /-- The port, unless it is the usual one. -/
  port : Option Nat
  deriving DecidableEq

/-- What a URL names there. -/
inductive Foreign.Place where
  /-- Text without segments, encoded. -/
  | whole (text : List Char)
  /-- The segments of a path, encoded; there may be none. -/
  | segments (list : List (List Char))
  deriving DecidableEq

/-- A URL that no request is made to. -/
structure Foreign where
  /-- The scheme, in lower case. -/
  scheme : List Char
  /-- Whose place it names, if it says so. -/
  authority : Option Foreign.Authority
  /-- What it names there. -/
  place : Foreign.Place
  /-- The query behind the question mark, encoded. -/
  query : Option (List Char)
  /-- The fragment behind the number sign, encoded. -/
  fragment : Option (List Char)
  deriving DecidableEq

namespace Foreign

/-! ## Printing -/

/-- The authority from the user name to the port. -/
def Authority.render (a : Authority) : List Char :=
  a.credentials.render ++ a.host ++ renderPort a.port

/-- The characters of a place. -/
def Place.render : Place → List Char
  | .whole text => text
  | .segments list => Path.render list

/-- What stands between the scheme and the place. Without an authority two slashes at the front of
the place would look like one, so a dot goes before them. -/
def renderAuthority : Option Authority → Place → List Char
  | some a, _ => '/' :: '/' :: a.render
  | none, .segments ([] :: _ :: _) => ['/', '.']
  | none, _ => []

/-- A URL as text. -/
def toString (f : Foreign) : String :=
  String.ofList (f.scheme ++ ':' :: renderAuthority f.authority f.place ++ f.place.render ++
    behind '?' f.query ++ behind '#' f.fragment)

/-- The URL without user name and password, as it is shown. -/
def withoutCredentials (f : Foreign) : Foreign :=
  { f with authority := f.authority.map fun a => { a with credentials := a.credentials.withheld } }

/-! ## Reading -/

/-- How the URLs of a scheme are read, unless it is one of a server that requests are made to. -/
def kind? (scheme : List Char) : Option Kind :=
  if scheme = "http".toList ∨ scheme = "https".toList then none
  else if scheme = "ftp".toList then some (.served 21)
  else if scheme = "ws".toList then some (.served 80)
  else if scheme = "wss".toList then some (.served 443)
  else if scheme = "file".toList then some .file
  else some .other

/-- Whether a scheme may hold a character behind its first one, which is a letter. -/
def isSchemeChar (c : Char) : Bool := c.isAlphanum || c = '+' || c = '-' || c = '.'

/-- The scheme in front of the first colon, and what is behind it. -/
def readScheme (s : List Char) : Option (List Char × List Char) :=
  match s.takeWhile (· ≠ ':'), s.dropWhile (· ≠ ':') with
  | first :: name, _ :: rest =>
    if first.isAlpha && name.all isSchemeChar then
      some ((first :: name).map Char.toLower, rest)
    else none
  | _, _ => none

/-- The parts of a URL between its scheme and its query, and what is behind them. -/
structure Parts where
  /-- Whose place it names, if it says so. -/
  authority : Option Authority
  /-- What it names there. -/
  place : Place
  /-- The query and the fragment as written. -/
  rest : List Char

/-- The URL of a scheme that names a server. -/
def readServed (port : Nat) (s : List Char) : Option Parts := do
  let s := s.dropWhile Path.isSlash
  let (credentials, host, port) ←
    readServer Host.ofChars? (some port) (s.takeWhile (!endsServer ·))
  let s := s.dropWhile (!endsServer ·)
  return {
    authority := some ⟨credentials, host.render.toList, port⟩
    place := .segments (Path.ofChars ((s.takeWhile (!endsPath ·)).drop 1))
    rest := s.dropWhile (!endsPath ·) }

/-- What is behind a slash, if there is one. -/
def behindSlash (s : List Char) : List Char :=
  match s with
  | [] => []
  | c :: rest => if Path.isSlash c then rest else c :: rest

/-- The host of a file, which is empty for `localhost`, and the path behind its first slash. A drive
is no host. Only a host that is kept brings a slash of its own. -/
def readFileHost (s : List Char) : Option (List Char × List Char) :=
  let name := s.takeWhile (!endsServer ·)
  let rest := s.dropWhile (!endsServer ·)
  if Path.isDrive name then some ([], s)
  else if name = [] then some ([], rest)
  else
    (Host.ofChars? name).map fun host =>
      if host = .name "localhost" then ([], rest) else (host.render.toList, behindSlash rest)

/-- The drive that a segment begins with, written with a colon, and the text behind it. -/
def drive? : List Char → Option (List Char × List Char)
  | c :: mark :: text =>
    if c.isAlpha && (mark = ':' || mark = '|' && text.isEmpty) then some ([c, ':'], text) else none
  | _ => none

/-- The path of a file behind the directories `above`, segment by segment, and whether a drive fills
the segment at its front. Text behind a drive at the front is a segment of its own, whatever it
is. -/
def writtenFile (above : List (List Char)) : List (List Char) → List (List Char) × Bool
  | [] => (above, false)
  | s :: rest =>
    match if above = [] then drive? s else none with
    | some (drive, []) => (Path.written [drive] rest, true)
    | some (drive, text) => (Path.written [drive, text] rest, false)
    | none =>
      if rest = [] then (Path.written above [s], false) else writtenFile (Path.enter above s) rest

/-- A path without empty segments at its front. -/
def withoutEmpty (segments : List (List Char)) : List (List Char) :=
  match segments.dropWhile List.isEmpty with
  | [] => [[]]
  | kept => kept

/-- The URL of a file. A drive that fills the front of the path leaves no host. -/
def readFile (s : List Char) : Option Parts := do
  let (host, s) ←
    match s with
    | c :: d :: rest =>
      if Path.isSlash c && Path.isSlash d then readFileHost rest else some ([], behindSlash s)
    | _ => some ([], behindSlash s)
  let (path, onDrive) := writtenFile [] (Path.segments Path.isSlash (s.takeWhile (!endsPath ·)))
  return {
    authority := some ⟨.absent, if onDrive then [] else host, none⟩
    place := .segments (withoutEmpty path)
    rest := s.dropWhile (!endsPath ·) }

/-- Whether a host must not hold a character even where it is kept as written. -/
def isRefused (c : Char) : Bool :=
  ['\x00', '\t', '\n', '\r', ' ', '#', '/', ':', '<', '>', '?', '@', '[', '\\', ']', '^',
    '|'].contains c

/-- A host that is kept as written, but for what has to be encoded; only an address in brackets is
read. -/
def hostAsWritten? (s : List Char) : Option (List Char) :=
  match s with
  | '[' :: rest =>
    if rest.getLast? = some ']' then
      (Ipv6.parse? rest.dropLast).map fun groups => (Host.ipv6 groups).render.toList
    else none
  | _ => if s.any isRefused then none else some (Percent.encode Percent.control s)

/-- The authority of a scheme of which nothing is known. The host may be empty, but then there are
neither a port nor credentials, and an at sign alone stands at the end of the URL. -/
def readAuthority (server rest : List Char) : Option Authority :=
  let (credentials, place) := splitCredentials server
  if (splitHost false place).1 = [] then
    if place = [] ∧ Credentials.ofChars (credentials.getD []) = .absent ∧
        (credentials = some [] → rest = []) then
      some ⟨.absent, [], none⟩
    else none
  else
    (readServer hostAsWritten? none server).map fun (credentials, host, port) =>
      ⟨credentials, host, port⟩

/-- The text that names a server, which ends at a backslash in its port, and what is behind it. -/
def splitPort (s : List Char) : List Char × List Char :=
  let port := (splitHost false (splitCredentials s).2).2
  let rest := port.dropWhile (· ≠ '\\')
  (s.take (s.length - rest.length), rest)

/-- The URL of a scheme of which nothing is known. -/
def readOther (s : List Char) : Option Parts :=
  let ends (c : Char) : Bool := c = '/'
  match s with
  | '/' :: '/' :: s =>
    let inServer (c : Char) : Bool := !ends c && !endsPath c
    let (server, path) := splitPort (s.takeWhile inServer)
    let rest := s.dropWhile inServer
    let segments :=
      match path ++ rest.takeWhile (!endsPath ·) with
      | [] => []
      | c :: path => Path.ofCharsBy ends (if ends c then path else c :: path)
    (readAuthority server rest).map fun authority => {
      authority := some authority
      place := .segments segments
      rest := rest.dropWhile (!endsPath ·) }
  | '/' :: s =>
    some {
      authority := none
      place := .segments (Path.ofCharsBy ends (s.takeWhile (!endsPath ·)))
      rest := s.dropWhile (!endsPath ·) }
  | s =>
    some {
      authority := none
      place := .whole (Percent.encode Percent.control (s.takeWhile (!endsPath ·)))
      rest := s.dropWhile (!endsPath ·) }

/-- The parts of a URL of some kind. -/
def Kind.read : Kind → List Char → Option Parts
  | .served port => readServed port
  | .file => readFile
  | .other => readOther

/-- What the queries of some kind do not admit. -/
def Kind.query : Kind → Char → Bool
  | .other => Percent.anyQuery
  | _ => Percent.query

/-- The URL of another scheme that a text denotes. -/
def parse? (text : String) : Option Foreign := do
  let (scheme, s) ← readScheme (clean text)
  let kind ← kind? scheme
  let parts ← kind.read s
  return {
    scheme
    authority := parts.authority
    place := parts.place
    query := readQuery kind.query parts.rest
    fragment := readFragment parts.rest }

/-- A scheme of a server that requests are made to is not read as another one. -/
theorem kind?_name (scheme : Scheme) : kind? scheme.name.toList = none := by
  cases scheme <;> simp [kind?, Scheme.name]

/-- Two slashes at the front of a path without an authority have a dot before them. -/
theorem render_empty_segment (next : List Char) (more : List (List Char)) :
    renderAuthority none (.segments ([] :: next :: more)) ++
        (Place.segments ([] :: next :: more)).render
      = '/' :: '.' :: '/' :: '/' :: next ++ Path.render more := by
  simp [renderAuthority, Place.render, Path.render]

end Foreign

end VaultTokens.Url
