/-!
# A tree of files

The files that a process can see from its working directory. A path is read name by name: an empty
name or a single dot stays where it is, two dots go up, and any of them demands a directory.

A place is given by the names that lead to it from the working directory. Two dots in front of them
stand for the directories above, of which nothing else is known, and a slash for the root of the
system.

Writing a file makes the directories on the way to it first, also those that two dots leave again.
What cannot be done is left undone, but not what was done on the way.

Main statements: `entryAt_put_self` and `entryAt_put_of_ne` (what is put at a place is found there
and nowhere else).
-/

namespace VaultTokens

/-- What is found at a place in a tree of files. -/
inductive FileTree.Entry where
  /-- A file with its bytes. -/
  | file (bytes : List UInt8)
  /-- A directory. -/
  | directory
  deriving DecidableEq, Repr

/-- Entries by the names that lead to them, later ones in front. -/
structure FileTree where
  /-- The entries. -/
  entries : List (List String × FileTree.Entry)
  deriving DecidableEq, Repr

namespace FileTree

/-- Why a file cannot be read. -/
inductive Fault where
  /-- Nothing is there. -/
  | notFound
  /-- A name on the way is not a directory. -/
  | notDirectory
  /-- A directory is there. -/
  | isDirectory
  /-- A name, or the path as a whole, is too long. -/
  | tooLong
  /-- The path holds the character that ends paths. -/
  | endsEarly
  deriving DecidableEq, Repr

/-- The reason in the words of the system. -/
def Fault.text : Fault → String
  | .notFound => "No such file or directory (os error 2)"
  | .notDirectory => "Not a directory (os error 20)"
  | .isDirectory => "Is a directory (os error 21)"
  | .tooLong => "File name too long (os error 36)"
  | .endsEarly => "file name contained an unexpected NUL byte"

/-- A tree without entries. -/
def empty : FileTree := ⟨[]⟩

/-! ## Places -/

/-- Whether a place is the working directory, a directory above it, or the root. -/
def isBase (place : List String) : Bool := place = ["/"] || place.all (· = "..")

/-- The directory that a place lies in. The root lies in itself. -/
def above (place : List String) : List String :=
  if place = ["/"] then place
  else if isBase place then place ++ [".."]
  else place.dropLast

/-- Whether a place lies somewhere below another one. -/
def isBelow (place other : List String) : Bool :=
  place.isPrefixOf other &&
    match other.drop place.length with
    | [] => false
    | next :: _ => next ≠ ".." && next ≠ "/"

/-- What is found at a place. -/
def entryAt (t : FileTree) (place : List String) : Option Entry :=
  if isBase place then some .directory
  else (t.entries.find? fun e => e.1 = place).map Prod.snd

/-- The tree with an entry at a place, in place of the one that was there. -/
def put (t : FileTree) (place : List String) (entry : Entry) : FileTree :=
  ⟨(place, entry) :: t.entries.filter fun e => e.1 ≠ place⟩

/-! ## Paths -/

/-- The bytes that a name may have. -/
def longestName : Nat := 255

/-- The bytes that a path may have. -/
def longestPath : Nat := 4095

/-- Whether a name stays where it is. -/
def isIdle (name : String) : Bool := name = "" || name = "."

/-- Whether a name is too long to be one. -/
def isTooLong (name : String) : Bool := longestName < name.utf8ByteSize

/-- Why a path leads nowhere, whatever the files are. -/
def fault? (path : String) : Option Fault :=
  if path.toList.contains '\x00' then some .endsEarly
  else if path = "" then some .notFound
  else if longestPath < path.utf8ByteSize then some .tooLong
  else none

/-- The names in a path. -/
def pathNames (path : String) : List String :=
  (path.toList.splitOn '/').map String.ofList

/-- The place that a path begins at. -/
def start (path : String) : List String := if path.toList.head? = some '/' then ["/"] else []

/-- Follows names from a place in the tree. -/
def walk (t : FileTree) (place : List String) : List String → Except Fault (List String)
  | [] => .ok place
  | name :: rest =>
    match t.entryAt place with
    | none => .error .notFound
    | some (.file _) => .error .notDirectory
    | some .directory =>
      if isIdle name then walk t place rest
      else if name = ".." then walk t (above place) rest
      else if isTooLong name then .error .tooLong
      else if (t.entryAt (place ++ [name])).isSome then walk t (place ++ [name]) rest
      else .error .notFound

/-- The place that a path leads to. -/
def locate (t : FileTree) (path : String) : Except Fault (List String) :=
  match fault? path with
  | some fault => .error fault
  | none => t.walk (start path) (pathNames path)

/-- Whether a path leads anywhere. -/
def leadsSomewhere (t : FileTree) (path : String) : Bool :=
  match t.locate path with
  | .ok _ => true
  | .error _ => false

/-- The bytes of the file that a path leads to. -/
def read (t : FileTree) (path : String) : Except Fault (List UInt8) :=
  match t.locate path with
  | .error fault => .error fault
  | .ok place =>
    match t.entryAt place with
    | none => .error .notFound
    | some (.file bytes) => .ok bytes
    | some .directory => .error .isDirectory

/-! ## Changes -/

/-- The tree with the directories that some names lead to from a place, up to the first one that
cannot be made. -/
def establish (t : FileTree) (place : List String) : List String → FileTree
  | [] => t
  | name :: rest =>
    if name = ".." then establish t (above place) rest
    else
      match t.entryAt (place ++ [name]) with
      | some .directory => establish t (place ++ [name]) rest
      | some (.file _) => t
      | none =>
        if isTooLong name then t
        else establish (t.put (place ++ [name]) .directory) (place ++ [name]) rest

/-- The last name of a path that is not empty. -/
def lastName? (path : String) : Option String :=
  ((pathNames path).filter fun name => name ≠ "").getLast?

/-- The tree with the directory that a path leads to, and those on the way. A directory that is
named by a dot behind it must be there already. -/
def makeDirectory (t : FileTree) (path : String) : FileTree :=
  if (fault? path).isSome then t
  else
    let names := (pathNames path).filter fun name => !isIdle name
    t.establish (start path) (if lastName? path = some "." then names.dropLast else names)

/-- The path without its last name. -/
def parent (path : String) : String :=
  let named := (pathNames path).reverse.dropWhile isIdle
  String.intercalate "/" ((named.drop 1).dropWhile isIdle).reverse

/-- The tree with a file of some bytes in a directory that is there, unless a directory has its
name. -/
def fill (t : FileTree) (path : String) (bytes : List UInt8) : FileTree :=
  let name := (pathNames path).getLastD ""
  if (fault? path).isSome || isIdle name || name = ".." || isTooLong name then t
  else
    match t.walk (start path) (pathNames path).dropLast with
    | .error _ => t
    | .ok place =>
      if t.entryAt place = some .directory ∧ t.entryAt (place ++ [name]) ≠ some .directory then
        t.put (place ++ [name]) (.file bytes)
      else t

/-- The tree with a file of some bytes, and the directories on the way to it. -/
def writeFile (t : FileTree) (path : String) (bytes : List UInt8) : FileTree :=
  (t.makeDirectory (parent path)).fill path bytes

/-- The tree without what a path leads to, and all below it. A directory that is named by dots is
emptied and stays. -/
def remove (t : FileTree) (path : String) : FileTree :=
  match t.locate path with
  | .error _ => t
  | .ok place =>
    let stays := lastName? path = some "." || lastName? path = some ".."
    ⟨t.entries.filter fun e => !(isBelow place e.1 || (e.1 = place && !stays))⟩

/-- What is put at a place is found there. -/
theorem entryAt_put_self {t : FileTree} {place : List String} {entry : Entry}
    (h : isBase place = false) : (t.put place entry).entryAt place = some entry := by
  simp [put, entryAt, h]

/-- What is put at a place changes no other. -/
theorem entryAt_put_of_ne {t : FileTree} {place other : List String} {entry : Entry}
    (h : other ≠ place) : (t.put place entry).entryAt other = t.entryAt other := by
  have hfind : ∀ entries : List (List String × Entry),
      (entries.filter fun e => e.1 ≠ place).find? (fun e => e.1 = other)
        = entries.find? fun e => e.1 = other := by
    intro entries
    induction entries with
    | nil => rfl
    | cons e entries ih =>
      by_cases he : e.1 = other
      · simp [he, h]
      · by_cases hp : e.1 = place
        · simpa [hp, Ne.symm h] using ih
        · simpa [hp, he] using ih
  simp only [entryAt]
  split
  · rfl
  · simp only [put, List.find?_cons, Ne.symm h, decide_false]
    rw [hfind]

end FileTree

end VaultTokens
