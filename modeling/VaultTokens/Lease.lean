import VaultTokens.Timestamp

/-!
# Leases

A token together with the time it was issued and the time it expires. A lease whose end would lie
beyond the calendar, or which was granted for no particular time, never expires.

A lease is due once the time left is no longer than a threshold. If the threshold reaches out of
the calendar the lease counts as due.

Main statements: `expiresAt_grant` and `isDue_iff`.
-/

namespace VaultTokens

/-- A span of as many seconds as a word holds, if there is one. -/
def Span.ofWord? (secs : UInt64) : Option Span :=
  Span.ofSeconds? secs.toNat

/-- A token that the server has issued. -/
structure Issued where
  /-- The token itself. -/
  token : String
  /-- For how many seconds it was issued; `none` if it never expires. -/
  lease : Option UInt64
  deriving DecidableEq, Repr

/-- A token with the time it was issued at and its expiry. -/
structure Lease where
  /-- The token itself. -/
  token : String
  /-- When it was issued. -/
  issuedAt : Timestamp
  /-- When it expires; `none` if it never does. -/
  expiresAt : Option Timestamp
  deriving DecidableEq

namespace Lease

/-- The lease of a token issued at `now`. -/
def grant (issued : Issued) (now : Timestamp) : Lease where
  token := issued.token
  issuedAt := now
  expiresAt := (issued.lease.bind Span.ofWord?).bind now.add?

/-- The whole seconds between issue and expiry. -/
def duration (l : Lease) : Option UInt64 :=
  l.expiresAt.bind fun e =>
    let secs := e.secondsSince l.issuedAt
    if 0 ≤ secs ∧ secs < 18446744073709551616 then some (UInt64.ofNat secs.toNat) else none

/-- The token as it would be issued anew with the time this lease was granted for. -/
def issued (l : Lease) : Issued := ⟨l.token, l.duration⟩

/-- Whether at `now` no more than `threshold` is left of the lease. -/
def isDue (l : Lease) (now : Timestamp) (threshold : Span) : Bool :=
  match l.expiresAt with
  | none => false
  | some e =>
    match e.sub? threshold with
    | none => true
    | some renewAt => renewAt ≤ now

theorem expiresAt_grant (issued : Issued) (now : Timestamp) :
    (grant issued now).expiresAt = (issued.lease.bind Span.ofWord?).bind now.add? := rfl

/-- A lease is due exactly if it expires and its expiry, less the threshold, is off the calendar or
has been reached. -/
theorem isDue_iff (l : Lease) (now : Timestamp) (threshold : Span) :
    l.isDue now threshold = true ↔
      ∃ e, l.expiresAt = some e ∧ ∀ renewAt, e.sub? threshold = some renewAt → renewAt ≤ now := by
  rw [isDue]
  cases l.expiresAt with
  | none => simp
  | some e => cases hs : e.sub? threshold <;> simp [hs]

end Lease

end VaultTokens
