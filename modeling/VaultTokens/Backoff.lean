import VaultTokens.Duration

/-!
# Exponential backoff

The wait before a failed attempt is repeated. It grows by a constant factor with every failure, up
to a greatest exponent, and is never shorter than the base delay. The factor is a machine word: a
power that does not fit is the greatest word.

Main statement: `delay_eq` names the two saturating steps a delay is made of.
-/

namespace VaultTokens

/-- How a delay grows with the number of failed attempts. -/
structure Backoff where
  /-- The factor per failed attempt; zero counts as one. -/
  multiplier : UInt32
  /-- The exponent from which on the delay grows no further. -/
  maxExponent : UInt32
  deriving DecidableEq, Repr

namespace Backoff

/-- Doubling, up to thirty-two times the base delay. -/
def standard : Backoff := ⟨2, 5⟩

/-- `acc * base ^ exponent` by squaring, unless some product on the way does not fit a word. -/
def checkedPow (acc base exponent : Nat) : Option Nat :=
  if exponent = 0 then some acc
  else
    let acc := if exponent % 2 = 1 then acc * base else acc
    if UInt32.size ≤ acc then none
    else if exponent = 1 then some acc
    else if UInt32.size ≤ base * base then none
    else checkedPow acc (base * base) (exponent / 2)
termination_by exponent
decreasing_by omega

/-- A power of a word, or the greatest word if it does not fit. -/
def saturatingPow (base exponent : UInt32) : UInt32 :=
  match checkedPow 1 base.toNat exponent.toNat with
  | some power => UInt32.ofNat power
  | none => 4294967295

/-- The factor after `attempt` failures. -/
def factor (b : Backoff) (attempt : UInt32) : UInt32 :=
  saturatingPow (max b.multiplier 1) (min attempt b.maxExponent)

/-- The wait after `attempt` earlier failures; the first one is the base delay itself. -/
def delay (b : Backoff) (base : Duration) (attempt : UInt32) : Duration :=
  base.saturatingMul (b.factor attempt)

theorem delay_eq (b : Backoff) (base : Duration) (attempt : UInt32) :
    (b.delay base attempt).toNanos
      = min (base.toNanos * (b.factor attempt).toNat) Duration.greatest.toNanos :=
  Duration.toNanos_saturatingMul _ _

end Backoff

end VaultTokens
