import VaultTokens.Duration

/-!
# Timers

Moments on the timer clock are nanoseconds since it started. A timer that is set for a duration goes
off that much later, but never later than in thirty years, which no process outlives.

Before a renewal the timer is set for the lease less a buffer, but never for less than a second, so
that a lease shorter than the buffer does not keep the server busy.

Main statement: `deadline_nextDelay` (a renewal never begins in the second after the last one).
-/

namespace VaultTokens.Renewal

/-- The longest wait: thirty years of 365 days. -/
def longestWait : Duration := .ofSecs 946080000

/-- When a timer goes off that is set at `now` for `d`. -/
def deadline (now : Nat) (d : Duration) : Nat := now + min d.toNanos longestWait.toNanos

/-- The least wait before a renewal. -/
def leastDelay : Duration := .ofSecs 1

/-- The wait between a login and the renewal of its token, for a lease and a buffer in seconds. -/
def nextDelay (lease buffer : UInt64) : Duration :=
  max (Duration.ofSecs (if buffer ≤ lease then lease - buffer else 0)) leastDelay

theorem le_deadline (now : Nat) (d : Duration) : now ≤ deadline now d := Nat.le_add_right ..

/-- The wait before a renewal in nanoseconds: what is left of the lease beyond the buffer, at least
a second. -/
theorem toNanos_nextDelay (lease buffer : UInt64) :
    (nextDelay lease buffer).toNanos
      = max ((lease.toNat - buffer.toNat) * nanosPerSecond) nanosPerSecond := by
  rw [nextDelay, Duration.toNanos_max, Duration.toNanos_ofSecs]
  have hleast : leastDelay.toNanos = nanosPerSecond := by decide
  rw [hleast]
  congr 2
  split
  · rename_i h
    exact UInt64.toNat_sub_of_le _ _ h
  · rename_i h
    rw [UInt64.le_iff_toNat_le] at h
    have : (0 : UInt64).toNat = 0 := rfl
    omega

theorem deadline_nextDelay (now : Nat) (lease buffer : UInt64) :
    now + nanosPerSecond ≤ deadline now (nextDelay lease buffer) := by
  have hlongest : nanosPerSecond ≤ longestWait.toNanos := by decide
  rw [deadline, toNanos_nextDelay]
  omega

end VaultTokens.Renewal
