/-!
# Durations

Lengths of time as the timers take them: whole seconds in a machine word and a part below one
second in nanoseconds. Arithmetic never wraps. A product that does not fit is the greatest
duration, and the statements below say so in plain nanoseconds.

Main statements: `toNanos_saturatingMul` and `toNanos_max`.
-/

namespace VaultTokens

/-- Nanoseconds in a second. -/
def nanosPerSecond : Nat := 1000000000

/-- Nanoseconds in a millisecond. -/
def nanosPerMilli : Nat := 1000000

/-- A length of time: seconds, and nanoseconds that do not fill another second. -/
structure Duration where
  /-- The whole seconds. -/
  secs : UInt64
  /-- The nanoseconds beyond them. -/
  nanos : Nat
  /-- The nanoseconds do not fill a second. -/
  nanos_lt : nanos < nanosPerSecond
  deriving DecidableEq

namespace Duration

/-- The whole length in nanoseconds. -/
def toNanos (d : Duration) : Nat :=
  d.secs.toNat * nanosPerSecond + d.nanos

/-- A whole number of seconds. -/
def ofSecs (secs : UInt64) : Duration :=
  ⟨secs, 0, by decide⟩

/-- No time at all. -/
def zero : Duration := ofSecs 0

/-- The greatest duration. -/
def greatest : Duration :=
  ⟨18446744073709551615, 999999999, by decide⟩

/-- The duration of so many nanoseconds, or the greatest one if there is none. -/
def ofNanos (n : Nat) : Duration :=
  if n / nanosPerSecond < UInt64.size then
    ⟨UInt64.ofNat (n / nanosPerSecond), n % nanosPerSecond, Nat.mod_lt _ (by decide)⟩
  else greatest

/-- A whole number of milliseconds. -/
def ofMillis (ms : UInt64) : Duration :=
  ofNanos (ms.toNat * nanosPerMilli)

/-- A multiple of a duration, computed on seconds and nanoseconds apart with a carry between them;
the greatest duration if the seconds do not fit. -/
def saturatingMul (d : Duration) (factor : UInt32) : Duration :=
  let nanos := d.nanos * factor.toNat
  let secs := d.secs.toNat * factor.toNat + nanos / nanosPerSecond
  if secs < UInt64.size then
    ⟨UInt64.ofNat secs, nanos % nanosPerSecond, Nat.mod_lt _ (by decide)⟩
  else greatest

/-- The longer of two durations. -/
instance : Max Duration where
  max d e := if d.toNanos ≤ e.toNanos then e else d

/-- The digits of `part` as a fraction of `width` decimal places, without closing zeros. -/
def fractionDigits (part width : Nat) : List Char :=
  let digits := (Nat.toDigits 10 part)
  let padded := List.replicate (width - digits.length) '0' ++ digits
  (padded.reverse.dropWhile (· = '0')).reverse

/-- A number with a fraction of `width` places and a unit: `1.5s`, `10s`. -/
def withUnit (whole part width : Nat) (unit : String) : String :=
  let fraction := fractionDigits part width
  let point := if fraction.isEmpty then "" else "."
  toString whole ++ point ++ String.ofList fraction ++ unit

/-- The duration in the greatest unit of which it holds at least one: `10s`, `250ms`, `7µs`,
`0ns`. -/
def text (d : Duration) : String :=
  if 0 < d.secs.toNat then withUnit d.secs.toNat d.nanos 9 "s"
  else if 1000000 ≤ d.nanos then withUnit (d.nanos / 1000000) (d.nanos % 1000000) 6 "ms"
  else if 1000 ≤ d.nanos then withUnit (d.nanos / 1000) (d.nanos % 1000) 3 "µs"
  else withUnit d.nanos 0 0 "ns"

theorem toNanos_ofSecs (secs : UInt64) : (ofSecs secs).toNanos = secs.toNat * nanosPerSecond :=
  Nat.add_zero _

theorem toNanos_greatest : greatest.toNanos = UInt64.size * nanosPerSecond - 1 := by decide

theorem toNanos_le_greatest (d : Duration) : d.toNanos ≤ greatest.toNanos := by
  have hs := d.secs.toNat_lt
  have hn : d.nanos < 1000000000 := d.nanos_lt
  rw [toNanos_greatest]
  simp only [toNanos, nanosPerSecond, UInt64.size] at *
  omega

/-- The nanoseconds of `ofNanos` are the ones asked for, capped at the greatest duration. -/
theorem toNanos_ofNanos (n : Nat) : (ofNanos n).toNanos = min n greatest.toNanos := by
  rw [toNanos_greatest]
  rw [ofNanos]
  split
  · simp only [toNanos, nanosPerSecond, UInt64.size, UInt64.toNat_ofNat'] at *
    omega
  · rw [toNanos_greatest]
    simp only [nanosPerSecond, UInt64.size] at *
    omega

/-- A product is exact up to the greatest duration, and capped there. -/
theorem toNanos_saturatingMul (d : Duration) (factor : UInt32) :
    (d.saturatingMul factor).toNanos = min (d.toNanos * factor.toNat) greatest.toNanos := by
  have hsplit : d.toNanos * factor.toNat
      = d.secs.toNat * factor.toNat * nanosPerSecond + d.nanos * factor.toNat := by
    simp only [toNanos, Nat.add_mul]
    congr 1
    rw [Nat.mul_right_comm]
  rw [toNanos_greatest, hsplit]
  unfold saturatingMul
  simp only
  split
  · simp only [toNanos, nanosPerSecond, UInt64.size, UInt64.toNat_ofNat'] at *
    omega
  · rw [toNanos_greatest]
    simp only [nanosPerSecond, UInt64.size] at *
    omega

theorem toNanos_max (d e : Duration) : (max d e).toNanos = max d.toNanos e.toNanos := by
  show (if d.toNanos ≤ e.toNanos then e else d).toNanos = _
  split <;> omega

end Duration

end VaultTokens
