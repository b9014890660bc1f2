import VaultTokens.Url.Percent

/-!
# Credentials in URLs

The user name and the password in front of a host. Both are kept as they are printed; the at sign
behind them is printed only if there is one of them.

Main statement: `render_eq_nil_iff` (when nothing is printed).
-/

namespace VaultTokens.Url

/-- A user name and a password. -/
structure Credentials where
  /-- The user name, encoded. -/
  user : List Char
  /-- The password, encoded; absent if it is empty. -/
  password : Option (List Char)
  deriving DecidableEq

namespace Credentials

/-- No user name and no password. -/
def absent : Credentials := ⟨[], none⟩

/-- The user name and the password with the at sign behind them. -/
def render (c : Credentials) : List Char :=
  match c.user, c.password with
  | [], none => []
  | user, none => user ++ ['@']
  | user, some password => user ++ ':' :: password ++ ['@']

/-- User name and password, separated by the first colon. -/
def ofChars (s : List Char) : Credentials :=
  let user := Percent.encode Percent.user (s.takeWhile (· ≠ ':'))
  match s.dropWhile (· ≠ ':') with
  | [] => ⟨user, none⟩
  | [_] => ⟨user, none⟩
  | _ :: password => ⟨user, some (Percent.encode Percent.user password)⟩

/-- What is left of the credentials where they are taken away. They stay if the user name does not
spell text. -/
def withheld (c : Credentials) : Credentials :=
  match Text.Utf8.decodeStrict (Percent.decode c.user) with
  | none => c
  | some user =>
    let password := c.password.bind fun p => Text.Utf8.decodeStrict (Percent.decode p)
    if user.isEmpty && password.isNone then c else absent

/-- Nothing is printed only where nothing is there. -/
theorem render_eq_nil_iff {c : Credentials} : c.render = [] ↔ c = absent := by
  obtain ⟨user, password⟩ := c
  cases user <;> cases password <;> simp [render, absent]

end Credentials

end VaultTokens.Url
