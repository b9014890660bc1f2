import VaultTokens.Duration
import VaultTokens.Settings.Refusal
import VaultTokens.Text.Record

/-!
# Renewal policies

When a token is renewed and how often a failed renewal is repeated. A policy may ask for a time to
live; then that is not below the least one, and the buffer before expiry is shorter.

Main statements: `make_eq_ok` (which choices make a policy) and `fillTtl_ttl` (a policy with a time
to live keeps it).
-/

namespace VaultTokens

/-- When a token is renewed, and how often a failed renewal is repeated. -/
structure RenewalPolicy where
  /-- The time to live asked for on renewal, in seconds; `none` leaves it to the server. -/
  ttl : Option UInt64
  /-- How many seconds before expiry the token is renewed. -/
  buffer : UInt64
  /-- Whether the token is renewed in the background. -/
  enabled : Bool
  /-- How often a failed renewal is repeated. -/
  maxRetries : UInt32
  /-- The wait before the first repetition. -/
  retryDelay : Duration
  /-- A time to live is long enough, and longer than the buffer. -/
  ttl_valid : ∀ t, ttl = some t → leastTtl ≤ t ∧ buffer < t
  deriving DecidableEq

namespace RenewalPolicy

/-- What may be chosen about a policy; what is left out takes its usual value. -/
structure Choices where
  /-- The time to live asked for on renewal. -/
  ttl : Option UInt64
  /-- Seconds before expiry. -/
  buffer : Option UInt64
  /-- Whether to renew in the background. -/
  enabled : Option Bool
  /-- How often to repeat a failed renewal. -/
  maxRetries : Option UInt32
  /-- The wait before the first repetition. -/
  retryDelay : Option Duration
  deriving DecidableEq

/-- Every choice left out. -/
def Choices.none : Choices := ⟨.none, .none, .none, .none, .none⟩

/-- The usual buffer, in seconds. -/
def usualBuffer : UInt64 := 30

/-- The usual wait before the first repetition. -/
def usualRetryDelay : Duration := .ofSecs 5

/-- The policy with every value its usual one. -/
def usual : RenewalPolicy :=
  ⟨none, usualBuffer, true, 0, usualRetryDelay, fun _ h => nomatch h⟩

/-- The policy of some choices, unless the time to live is too short for itself or for the
buffer. -/
def make (c : Choices) : Except Refusal RenewalPolicy :=
  let buffer := c.buffer.getD usualBuffer
  if hleast : c.ttl.all (leastTtl ≤ ·) = true then
    if hbuffer : c.ttl.all (buffer < ·) = true then
      .ok
        { ttl := c.ttl
          buffer := buffer
          enabled := c.enabled.getD true
          maxRetries := c.maxRetries.getD 0
          retryDelay := c.retryDelay.getD usualRetryDelay
          ttl_valid := fun t h => by
            rw [h] at hleast hbuffer
            exact ⟨of_decide_eq_true hleast, of_decide_eq_true hbuffer⟩ }
    else .error .bufferNotBelowTtl
  else .error .ttlTooShort

/-- The policy with a time to live, its own if it has one. -/
def fillTtl (p : RenewalPolicy) (ttl : UInt64) : Except Refusal RenewalPolicy :=
  match p.ttl with
  | some _ => .ok p
  | none =>
    make
      { ttl := some ttl
        buffer := some p.buffer
        enabled := some p.enabled
        maxRetries := some p.maxRetries
        retryDelay := some p.retryDelay }

/-- A policy on one line. -/
def describe (p : RenewalPolicy) : String :=
  Text.record "RenewalPolicy"
    [("ttl", Text.optional (p.ttl.map fun t => toString t.toNat)),
      ("renew_buffer", toString p.buffer.toNat),
      ("enabled", toString p.enabled),
      ("max_retries", toString p.maxRetries.toNat),
      ("retry_delay", p.retryDelay.text)]

theorem make_none : make .none = .ok usual := by
  simp [make, Choices.none, usual]

/-- A policy that is made has the values chosen, or the usual ones. -/
theorem make_eq_ok {c : Choices} {p : RenewalPolicy} (h : make c = .ok p) :
    p.ttl = c.ttl ∧ p.buffer = c.buffer.getD usualBuffer ∧ p.enabled = c.enabled.getD true ∧
      p.maxRetries = c.maxRetries.getD 0 ∧ p.retryDelay = c.retryDelay.getD usualRetryDelay := by
  unfold make at h
  simp only at h
  split at h
  · split at h
    · simp only [Except.ok.injEq] at h
      subst h
      simp
    · cases h
  · cases h

theorem fillTtl_ttl {p : RenewalPolicy} {t ttl : UInt64} (h : p.ttl = some t) :
    p.fillTtl ttl = .ok p := by
  simp [fillTtl, h]

end RenewalPolicy

end VaultTokens
