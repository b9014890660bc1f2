import VaultTokens.Text.Quoted

/-!
# Records as text

Values with named fields on one line, for people who look at settings: the name of the record and,
between braces, each field with its value. A part that may be absent is shown as present or absent.
-/

namespace VaultTokens.Text

/-- A record on one line: its name and its fields in order. -/
def record (name : String) (fields : List (String × String)) : String :=
  name ++ " \x7b " ++ ", ".intercalate (fields.map fun f => f.1 ++ ": " ++ f.2) ++ " \x7d"

/-- A part that may be absent. -/
def optional (shown : Option String) : String :=
  match shown with
  | some s => "Some(" ++ s ++ ")"
  | none => "None"

/-- What is shown in place of a secret. -/
def hidden : String := quote "***"

end VaultTokens.Text
