import VaultTokens.Failure
import VaultTokens.Lease

/-!
# What a strategy knows of its logins

The standing of a strategy is what its exchanges with the server have said so far: the lease of the
last success, how many exchanges have failed since, and what the last failure was. It is replaced as
a whole, so that a token and its expiry always belong together, and a failure keeps the lease.

Main statement: `toNat_countUp` (the count stops at the greatest word).
-/

namespace VaultTokens

/-- What the exchanges of a strategy have said so far. -/
structure Standing where
  /-- The lease of the last success. -/
  lease : Option Lease
  /-- The failures since then, as far as a word counts. -/
  failures : UInt32
  /-- The message of the last failure, if no success came after it. -/
  lastError : Option String
  deriving DecidableEq

namespace Standing

/-- As many failures in a row make a strategy unhealthy. -/
def healthThreshold : UInt32 := 3

/-- What a strategy knows before its first exchange. -/
def initial : Standing := ⟨none, 0, none⟩

/-- The token of the lease. -/
def token (s : Standing) : Option String := s.lease.map Lease.token

/-- Whether only a few exchanges have failed since the last success. -/
def isHealthy (s : Standing) : Bool := s.failures < healthThreshold

/-- The next word, or the same one if it is the greatest. -/
def countUp (n : UInt32) : UInt32 := if n = 4294967295 then n else n + 1

/-- The standing after an exchange that ended at `now`. -/
def record (s : Standing) (now : Timestamp) : Except Failure Issued → Standing
  | .ok issued => ⟨some (Lease.grant issued now), 0, none⟩
  | .error f => ⟨s.lease, countUp s.failures, some f.message⟩

/-- Whether a new token has to be obtained: there is none, or its lease is due. -/
def needsLogin (s : Standing) (now : Timestamp) (threshold : Span) : Bool :=
  match s.lease with
  | none => true
  | some l => l.isDue now threshold

@[simp]
theorem record_ok (s : Standing) (now : Timestamp) (issued : Issued) :
    s.record now (.ok issued) = ⟨some (Lease.grant issued now), 0, none⟩ := rfl

@[simp]
theorem record_error (s : Standing) (now : Timestamp) (f : Failure) :
    s.record now (.error f) = ⟨s.lease, countUp s.failures, some f.message⟩ := rfl

/-- Counting up adds one, up to the greatest word. -/
theorem toNat_countUp (n : UInt32) : (countUp n).toNat = min (n.toNat + 1) 4294967295 := by
  have hn := n.toNat_lt
  simp only [countUp]
  split
  · rename_i h
    subst h
    rfl
  · rename_i h
    have : n.toNat ≠ 4294967295 := fun hEq => h (UInt32.toNat_inj.1 hEq)
    rw [UInt32.toNat_add]
    have : (1 : UInt32).toNat = 1 := rfl
    omega

end Standing

end VaultTokens
