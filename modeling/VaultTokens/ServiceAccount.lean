import VaultTokens.Failure
import VaultTokens.FileTree
import VaultTokens.Text.Blank
import VaultTokens.Text.Utf8

/-!
# Service account tokens

The token that proves which workload asks for a login. It is read from its file at every login,
because it is replaced from time to time, and sent without the blanks around it. An inline token
stands in for a file that cannot be read, but not for one that is blank.

Main statements: `read_of_text`, `read_of_blank` and `read_of_fault` say what is sent in each case.
-/

namespace VaultTokens

/-- Where a service account token comes from. -/
structure ServiceAccount where
  /-- The file that is read at every login. -/
  file : String
  /-- The token that stands in for a file that cannot be read. -/
  inlineToken : Option String
  deriving DecidableEq

namespace ServiceAccount

/-- The source with a file and an inline token. Without either there is none. -/
def make (files : FileTree) (file : String) (inlineToken : Option String) :
    Except Failure ServiceAccount :=
  if inlineToken.isNone && !files.leadsSomewhere file then
    .error (.configuration ("Service account token file " ++ file ++
      " does not exist and no service account token is configured"))
  else .ok ⟨file, inlineToken⟩

/-- The text of the file, or why there is none. -/
def contents (s : ServiceAccount) (files : FileTree) : Except String String :=
  match files.read s.file with
  | .error fault => .error fault.text
  | .ok bytes =>
    match Text.Utf8.decodeStrict bytes with
    | some text => .ok (String.ofList text)
    | none => .error "stream did not contain valid UTF-8"

/-- The token to send. -/
def read (s : ServiceAccount) (files : FileTree) : Except Failure String :=
  match s.contents files with
  | .ok text =>
    if Text.isAllBlank text then
      .error (.serviceAccount ("Service account token file " ++ s.file ++ " is empty"))
    else .ok (Text.trim text)
  | .error reason =>
    match s.inlineToken with
    | some token => .ok token
    | none =>
      .error (.serviceAccount
        ("Failed to read service account token file " ++ s.file ++ ": " ++ reason))

theorem read_of_text {s : ServiceAccount} {files : FileTree} {text : String}
    (h : s.contents files = .ok text) (hblank : Text.isAllBlank text = false) :
    s.read files = .ok (Text.trim text) := by
  simp [read, h, hblank]

theorem read_of_blank {s : ServiceAccount} {files : FileTree} {text : String}
    (h : s.contents files = .ok text) (hblank : Text.isAllBlank text = true) :
    s.read files
      = .error (.serviceAccount ("Service account token file " ++ s.file ++ " is empty")) := by
  simp [read, h, hblank]

theorem read_of_fault {s : ServiceAccount} {files : FileTree} {reason token : String}
    (h : s.contents files = .error reason) (hinline : s.inlineToken = some token) :
    s.read files = .ok token := by
  simp [read, h, hinline]

end ServiceAccount

end VaultTokens
