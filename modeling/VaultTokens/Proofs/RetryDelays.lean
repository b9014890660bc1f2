import VaultTokens.Backoff
import Mathlib.Algebra.Group.Nat.Defs

/-!
# The wait before another attempt, exactly

A wait is computed in machine words. The factor is a power that is found by squaring, where every
product that leaves its word makes the whole power the greatest word; the base delay is then
multiplied by it with seconds and nanoseconds apart, and what leaves the word of the seconds is the
greatest duration. This file shows that none of these steps can be told from the result: it is the
one that numbers without any bound would give, capped once behind the power and once at the end. So
the wait has the order of that formula, which grows with all it is made from.

## Main results

* `checkedPow_eq` — squaring stops exactly if the power itself does not fit a word
* `toNanos_delay` — the wait in nanoseconds
* `retry_delays` — the formula and what follows from it
-/

namespace VaultTokens.Backoff

variable {base exponent acc : Nat} {b : Backoff} {attempt : UInt32}

/-! ### Powers by squaring -/

/-- Half the exponent over the squared base: the product stays the same. -/
theorem mul_pow_half (acc base exponent : Nat) :
    (if exponent % 2 = 1 then acc * base else acc) * (base * base) ^ (exponent / 2)
      = acc * base ^ exponent := by
  have hsquare : (base * base) ^ (exponent / 2) = base ^ (2 * (exponent / 2)) := by
    rw [Nat.pow_mul, Nat.pow_two]
  rw [hsquare]
  split
  · rename_i hodd
    rw [Nat.mul_assoc, ← Nat.pow_add_one', show 2 * (exponent / 2) + 1 = exponent by omega]
  · rename_i heven
    rw [show 2 * (exponent / 2) = exponent by omega]

theorem step_pos (hbase : 0 < base) (hacc : 0 < acc) :
    0 < if exponent % 2 = 1 then acc * base else acc := by
  split
  · exact Nat.mul_pos hacc hbase
  · exact hacc

/-- **Squaring stops exactly if the power does not fit a word.** No product on the way is too great
unless the power is. -/
theorem checkedPow_eq (hbase : 0 < base) (hacc : 0 < acc) (hword : acc < UInt32.size) :
    checkedPow acc base exponent
      = if acc * base ^ exponent < UInt32.size then some (acc * base ^ exponent) else none := by
  fun_induction checkedPow acc base exponent with
  | case1 acc base => rw [Nat.pow_zero, Nat.mul_one, if_pos hword]
  | case2 acc base exponent hne acc' hover =>
    have hpow : acc' * (base * base) ^ (exponent / 2) = acc * base ^ exponent :=
      mul_pow_half acc base exponent
    have hle : acc' ≤ acc' * (base * base) ^ (exponent / 2) :=
      Nat.le_mul_of_pos_right _ (Nat.pow_pos (Nat.mul_pos hbase hbase))
    rw [if_neg (by omega)]
  | case3 acc base _ acc' hfits =>
    have hpow : acc' = acc * base ^ 1 := (Nat.pow_one base).symm ▸ rfl
    rw [← hpow, if_pos (by omega)]
  | case4 acc base exponent hne acc' hfits hone hover =>
    have hpow : acc' * (base * base) ^ (exponent / 2) = acc * base ^ exponent :=
      mul_pow_half acc base exponent
    -- at least one square is left, and it alone is too great
    have hle : base * base ≤ acc' * (base * base) ^ (exponent / 2) :=
      calc base * base
          ≤ (base * base) ^ (exponent / 2) := Nat.le_self_pow (by omega) _
        _ ≤ acc' * (base * base) ^ (exponent / 2) :=
          Nat.le_mul_of_pos_left _ (step_pos hbase hacc)
    rw [if_neg (by omega)]
  | case5 acc base exponent hne acc' hfits hone hsquare ih =>
    have hpow : acc' * (base * base) ^ (exponent / 2) = acc * base ^ exponent :=
      mul_pow_half acc base exponent
    rw [ih (Nat.mul_pos hbase hbase) (step_pos hbase hacc) (by omega), hpow]

/-- A power of a word is exact up to the greatest word, and capped there. -/
theorem toNat_saturatingPow {base exponent : UInt32} (hbase : 0 < base.toNat) :
    (saturatingPow base exponent).toNat
      = min (base.toNat ^ exponent.toNat) (UInt32.size - 1) := by
  rw [saturatingPow, checkedPow_eq hbase Nat.one_pos (by decide), Nat.one_mul]
  split
  · rename_i power hpower
    split at hpower
    · rename_i hfits
      obtain rfl := Option.some.inj hpower
      rw [UInt32.toNat_ofNat', Nat.mod_eq_of_lt hfits, Nat.min_eq_left (by omega)]
    · cases hpower
  · rename_i hpower
    split at hpower
    · cases hpower
    · rename_i hover
      rw [Nat.min_eq_right (by omega)]
      rfl

/-! ### The factor and the wait -/

theorem toNat_min (v w : UInt32) : (min v w).toNat = min v.toNat w.toNat := by
  rw [show min v w = if v ≤ w then v else w from rfl]
  split <;> rename_i h <;> rw [UInt32.le_iff_toNat_le] at h <;> omega

theorem toNat_max (v w : UInt32) : (max v w).toNat = max v.toNat w.toNat := by
  rw [show max v w = if v ≤ w then w else v from rfl]
  split <;> rename_i h <;> rw [UInt32.le_iff_toNat_le] at h <;> omega

/-- **The factor is the power, unless it does not fit a word.** -/
theorem toNat_factor (b : Backoff) (attempt : UInt32) :
    (b.factor attempt).toNat
      = min (max 1 b.multiplier.toNat ^ min attempt.toNat b.maxExponent.toNat)
          (UInt32.size - 1) := by
  have hmultiplier : (max b.multiplier 1).toNat = max 1 b.multiplier.toNat :=
    (toNat_max ..).trans (Nat.max_comm ..)
  rw [factor, toNat_saturatingPow (by omega), hmultiplier, toNat_min]

/-- The wait in nanoseconds after so many failures, in numbers without a bound but for the two
places where it is capped. -/
def wait (base multiplier maxExponent attempt : Nat) : Nat :=
  min (base * min (max 1 multiplier ^ min attempt maxExponent) (UInt32.size - 1))
    Duration.greatest.toNanos

/-- **The wait in nanoseconds.** -/
theorem toNanos_delay (b : Backoff) (d : Duration) (attempt : UInt32) :
    (b.delay d attempt).toNanos
      = wait d.toNanos b.multiplier.toNat b.maxExponent.toNat attempt.toNat := by
  rw [delay_eq, toNat_factor, wait]

theorem one_le_capped (multiplier exponent : Nat) :
    1 ≤ min (max 1 multiplier ^ exponent) (UInt32.size - 1) :=
  Nat.le_min.mpr ⟨Nat.one_le_pow _ _ (Nat.le_max_left ..), by decide⟩

/-- The wait is no shorter than the base delay. -/
theorem le_wait {multiplier maxExponent attempt : Nat} (hbase : base ≤ Duration.greatest.toNanos) :
    base ≤ wait base multiplier maxExponent attempt :=
  Nat.le_min.mpr ⟨Nat.le_mul_of_pos_right base (one_le_capped ..), hbase⟩

/-- The wait grows with everything that it is made from. -/
theorem wait_mono {base' multiplier multiplier' maxExponent maxExponent' attempt attempt' : Nat}
    (hbase : base ≤ base') (hmultiplier : multiplier ≤ multiplier')
    (hexponent : maxExponent ≤ maxExponent') (hattempt : attempt ≤ attempt') :
    wait base multiplier maxExponent attempt ≤ wait base' multiplier' maxExponent' attempt' := by
  have hmin : min attempt maxExponent ≤ min attempt' maxExponent' := by omega
  have hmax : max 1 multiplier ≤ max 1 multiplier' := by omega
  have hpow : max 1 multiplier ^ min attempt maxExponent
      ≤ max 1 multiplier' ^ min attempt' maxExponent' :=
    calc max 1 multiplier ^ min attempt maxExponent
        ≤ max 1 multiplier' ^ min attempt maxExponent := Nat.pow_le_pow_left hmax _
      _ ≤ max 1 multiplier' ^ min attempt' maxExponent' :=
        Nat.pow_le_pow_right (by omega) hmin
  have hmul : base * min (max 1 multiplier ^ min attempt maxExponent) (UInt32.size - 1)
      ≤ base' * min (max 1 multiplier' ^ min attempt' maxExponent') (UInt32.size - 1) :=
    Nat.mul_le_mul hbase (by omega)
  rw [wait, wait]
  omega

/-- From the greatest exponent on the factor stays the same. -/
theorem factor_of_le (h : b.maxExponent ≤ attempt) :
    b.factor attempt = b.factor b.maxExponent := by
  rw [UInt32.le_iff_toNat_le] at h
  rw [← UInt32.toNat_inj, toNat_factor, toNat_factor, Nat.min_eq_right h, Nat.min_self]

/-- The nanoseconds below a second times a factor fit a word, so this product needs no check. -/
theorem nanos_mul_lt (d : Duration) (factor : UInt32) :
    d.nanos * factor.toNat < UInt64.size := by
  have hnanos : d.nanos < 1000000000 := d.nanos_lt
  calc d.nanos * factor.toNat
      ≤ 1000000000 * UInt32.size :=
        Nat.mul_le_mul (Nat.le_of_lt hnanos) (Nat.le_of_lt factor.toNat_lt)
    _ < UInt64.size := by decide

/-- **The wait is exact, monotone and bounded.** In nanoseconds it is the base delay times the
multiplier, at least one, to the power of the failures up to the greatest exponent; the power is
capped at the greatest word of 32 bits and the wait at the greatest duration. The only product that
is not checked fits its word. So the wait is never shorter than the base delay, never gets shorter
when the base delay, the failures, the multiplier or the greatest exponent grow, and does not change
any more from the greatest exponent on. -/
theorem retry_delays (b b' : Backoff) (d d' : Duration) (attempt attempt' : UInt32) :
    let delay := b.delay d attempt
    delay.toNanos
        = min (d.toNanos * min (max 1 b.multiplier.toNat ^ min attempt.toNat b.maxExponent.toNat)
            (2 ^ 32 - 1)) Duration.greatest.toNanos ∧
      delay.nanos < 1000000000 ∧ d.nanos * (b.factor attempt).toNat < 2 ^ 64 ∧
      d.toNanos ≤ delay.toNanos ∧
      (d.toNanos ≤ d'.toNanos → b.multiplier ≤ b'.multiplier → b.maxExponent ≤ b'.maxExponent →
        attempt ≤ attempt' → delay.toNanos ≤ (b'.delay d' attempt').toNanos) ∧
      (b.maxExponent ≤ attempt → delay = b.delay d b.maxExponent) := by
  intro delay
  have hdelay : delay.toNanos
      = wait d.toNanos b.multiplier.toNat b.maxExponent.toNat attempt.toNat := toNanos_delay ..
  refine ⟨hdelay, delay.nanos_lt, nanos_mul_lt .., ?_, ?_, ?_⟩
  · rw [hdelay]
    exact le_wait d.toNanos_le_greatest
  · intro hbase hmultiplier hexponent hattempt
    rw [UInt32.le_iff_toNat_le] at hmultiplier hexponent hattempt
    rw [hdelay, toNanos_delay]
    exact wait_mono hbase hmultiplier hexponent hattempt
  · intro h
    rw [show delay = d.saturatingMul (b.factor attempt) from rfl, factor_of_le h]
    rfl

/-- Tripling five seconds, and quadrupling six of them: after thirty failures the one factor and
after forty the other do not fit a word. -/
theorem retry_delays_capped :
    ((⟨3, 30⟩ : Backoff).delay (.ofSecs 5) 30).toNanos
        ≤ ((⟨4, 35⟩ : Backoff).delay (.ofSecs 6) 40).toNanos ∧
      (⟨4, 35⟩ : Backoff).delay (.ofSecs 6) 40 = (⟨4, 35⟩ : Backoff).delay (.ofSecs 6) 35 := by
  have h := retry_delays ⟨3, 30⟩ ⟨4, 35⟩ (.ofSecs 5) (.ofSecs 6) 30 40
  have h' := retry_delays ⟨4, 35⟩ ⟨4, 35⟩ (.ofSecs 6) (.ofSecs 6) 40 40
  exact ⟨h.2.2.2.2.1 (by decide) (by decide) (by decide) (by decide),
    h'.2.2.2.2.2 (by decide)⟩

end VaultTokens.Backoff
