import VaultTokens.Settings.RenewalPolicy
import VaultTokens.Text.Blank

/-!
# Settings of the token strategy

A token that was issued beforehand and is renewed in place. It is not blank, and its policy always
asks for a time to live.

Main statement: `make_eq_ok` (settings that are made have the values given).
-/

namespace VaultTokens

/-- The time to live that is asked for unless another one is given, in seconds. -/
def usualTtl : UInt64 := 300

/-- Settings of the token strategy. -/
structure TokenSettings where
  /-- The server. -/
  url : Url
  /-- The token. -/
  token : String
  /-- How the token is renewed. -/
  renewal : RenewalPolicy
  /-- The token is not blank. -/
  token_named : Text.isAllBlank token = false
  /-- The policy asks for a time to live. -/
  ttl_some : renewal.ttl.isSome = true

namespace TokenSettings

/-- What may be given for the settings of the token strategy. -/
structure Choices where
  /-- The server. -/
  url : String
  /-- The token. -/
  token : String
  /-- How the token is renewed. -/
  renewal : Option RenewalPolicy
  deriving DecidableEq

/-- The time to live that the policy asks for. -/
def ttl (s : TokenSettings) : UInt64 := s.renewal.ttl.get s.ttl_some

theorem isSome_ttl_of_fillTtl {p q : RenewalPolicy} {ttl : UInt64}
    (h : p.fillTtl ttl = .ok q) : q.ttl.isSome = true := by
  cases hp : p.ttl with
  | some t =>
    rw [RenewalPolicy.fillTtl_ttl hp] at h
    simp only [Except.ok.injEq] at h
    simp [← h, hp]
  | none =>
    simp only [RenewalPolicy.fillTtl, hp] at h
    simp [(RenewalPolicy.make_eq_ok h).1]

/-- The settings of some choices, unless the URL is none, the token is blank or the usual time to
live is no longer than the buffer. -/
def make (c : Choices) : Except Refusal TokenSettings :=
  match readUrl c.url with
  | .error r => .error r
  | .ok url =>
    if htoken : Text.isAllBlank c.token = false then
      match hrenewal : (c.renewal.getD .usual).fillTtl usualTtl with
      | .error r => .error r
      | .ok renewal =>
        .ok
          { url := url
            token := c.token
            renewal := renewal
            token_named := htoken
            ttl_some := isSome_ttl_of_fillTtl hrenewal }
    else .error .tokenBlank

/-- The settings on one line, without the token. -/
def describe (s : TokenSettings) : String :=
  Text.record "TokenAuthConfig"
    [("vault_url", Text.quote s.url.toString),
      ("token", Text.hidden),
      ("renewal", s.renewal.describe)]

/-- Settings that are made have the values given, or the usual ones. -/
theorem make_eq_ok {c : Choices} {s : TokenSettings} (h : make c = .ok s) :
    readUrl c.url = .ok s.url ∧ s.token = c.token ∧
      (c.renewal.getD .usual).fillTtl usualTtl = .ok s.renewal := by
  simp only [make] at h
  split at h
  · cases h
  · rename_i url hurl
    split at h
    · split at h
      · cases h
      · rename_i renewal hrenewal
        simp only [Except.ok.injEq] at h
        subst h
        exact ⟨hurl, rfl, hrenewal⟩
    · cases h

end TokenSettings

end VaultTokens
