import VaultTokens.Login.Method
import VaultTokens.Proofs.LeaseThresholds
import VaultTokens.Standing

/-!
# When a token has to be renewed, exactly

A lease is due once the clock and the threshold together reach its expiry. All three are added and
subtracted on a calendar with a first and a last instant, and with spans that have a greatest
length. Each operation that leaves its range has an answer of its own: a lease that cannot be
represented never expires, a threshold without a span is the longest one, and an instant before the
calendar has always been reached. This file shows that these answers never meet the wrong way: the
decision is the one that numbers without any bound would give.

Times are told apart by their nanoseconds, which is possible outside of leap seconds only. A clock
shows no leap second.

## Main results

* `Timestamp.ofNanos?_eq_some_iff` — which instant a number of nanoseconds is
* `Lease.expiresAt_grant_of_not_leap`, `Lease.duration_grant` — expiry and duration of a lease
* `Lease.isDue_grant_iff` — a lease is due exactly if clock and threshold reach the expiry
* `renewal_decided` — all of this after any history of exchanges
-/

namespace VaultTokens

/-! ### Instants and their nanoseconds -/

namespace Timestamp

variable {t u : Timestamp} {n : Int}

/-- Whether the calendar has an instant so many nanoseconds after the beginning of 1970. -/
def IsOnCalendar (n : Int) : Prop := ∃ e : Timestamp, e.isLeap = false ∧ e.nanos = n

/-- The calendar has a first and a last nanosecond. -/
theorem nanos_bounds (ht : t.isLeap = false) :
    -8334601228800000000000 ≤ t.nanos ∧ t.nanos ≤ 8210266876799999999999 := by
  have hsub := subsecond_lt_of_not_leap ht
  have hfirst := t.ge_first
  have hlast := t.le_last
  rw [nanos, secondNanos]
  omega

/-- Outside of leap seconds an instant is known by its nanoseconds. -/
theorem eq_of_nanos_eq (ht : t.isLeap = false) (hu : u.isLeap = false) (h : t.nanos = u.nanos) :
    t = u := by
  have htsub := subsecond_lt_of_not_leap ht
  have husub := subsecond_lt_of_not_leap hu
  rw [nanos, nanos, secondNanos] at h
  obtain ⟨tsec, tsub, _, _, _⟩ := t
  obtain ⟨usec, usub, _, _, _⟩ := u
  obtain rfl : tsec = usec := by
    simp only at h htsub husub
    omega
  obtain rfl : tsub = usub := by
    simp only at h
    omega
  rfl

theorem ofNanos?_nanos (ht : t.isLeap = false) : ofNanos? t.nanos = some t := by
  have hsome : (ofNanos? t.nanos).isSome = true := by
    rw [ofNanos?_isSome_iff]
    exact nanos_bounds ht
  obtain ⟨u, hu⟩ := Option.isSome_iff_exists.mp hsome
  rw [hu, eq_of_nanos_eq (isLeap_of_ofNanos? hu) ht (nanos_of_ofNanos? hu)]

/-- **A number of nanoseconds is the instant that has it.** -/
theorem ofNanos?_eq_some_iff : ofNanos? n = some t ↔ t.isLeap = false ∧ t.nanos = n := by
  constructor
  · intro h
    exact ⟨isLeap_of_ofNanos? h, nanos_of_ofNanos? h⟩
  · rintro ⟨ht, rfl⟩
    exact ofNanos?_nanos ht

theorem isSome_ofNanos?_iff : (ofNanos? n).isSome = true ↔ IsOnCalendar n := by
  rw [Option.isSome_iff_exists]
  exact exists_congr fun e => ofNanos?_eq_some_iff

theorem ofNanos?_eq_none_iff : ofNanos? n = none ↔ ¬IsOnCalendar n := by
  rw [← isSome_ofNanos?_iff, Option.not_isSome_iff_eq_none]

/-- The whole seconds between two instants that are whole seconds apart. -/
theorem secondsSince_of_nanos_eq (ht : t.isLeap = false) (hu : u.isLeap = false) {d : Nat}
    (h : u.nanos = t.nanos + d * secondNanos) : u.secondsSince t = d := by
  have hdiff : u.nanos - t.nanos = d * secondNanos := by omega
  have hpos : secondNanos ≠ 0 := by decide
  simp [secondsSince, ht, hu, hdiff, Int.mul_tdiv_cancel _ hpos]

end Timestamp

/-! ### Spans of words -/

namespace Span

variable {w : UInt64} {s : Span}

theorem nanos_of_ofWord? (h : ofWord? w = some s) : s.nanos = w.toNat * secondNanos :=
  nanos_of_ofSeconds? h

/-- A word of seconds is no span only if it is longer than the longest one. -/
theorem lt_of_ofWord?_eq_none (h : ofWord? w = none) :
    9223372036854775807000000 < w.toNat * secondNanos := by
  rw [ofWord?, ofSeconds?] at h
  split at h
  · cases h
  · rename_i hlong
    rw [secondNanos] at hlong ⊢
    omega

theorem nanos_greatest : greatest.nanos = 9223372036854775807000000 := by
  rw [greatest]

end Span

/-! ### One lease -/

namespace Lease

open Timestamp

variable {now i e : Timestamp} {token : String} {d t : UInt64}

/-- **A lease expires its duration after its issue**, if the calendar reaches that far. -/
theorem expiresAt_grant_of_not_leap (hi : i.isLeap = false) (token : String) (d : UInt64) :
    (grant ⟨token, some d⟩ i).expiresAt = ofNanos? (i.nanos + d.toNat * secondNanos) := by
  rw [expiresAt_grant, Option.bind_some]
  cases hd : Span.ofWord? d with
  | some s => rw [Option.bind_some, add?, shift?_of_not_leap hi, Span.nanos_of_ofWord? hd]
  | none =>
    -- the calendar is shorter than the longest span
    have hlong := Span.lt_of_ofWord?_eq_none hd
    have hbounds := nanos_bounds hi
    rw [Option.bind_none, eq_comm, ← Option.not_isSome_iff_eq_none, ofNanos?_isSome_iff]
    omega

theorem duration_eq_some {l : Lease} {k : Nat} (he : l.expiresAt = some e)
    (hk : e.secondsSince l.issuedAt = k) (hlt : k < UInt64.size) :
    l.duration = some (UInt64.ofNat k) := by
  have hword : ((k : Nat) : Int) < 18446744073709551616 := by
    rw [UInt64.size] at hlt
    omega
  rw [duration, he, Option.bind_some]
  simp only [hk]
  rw [if_pos ⟨Int.natCast_nonneg _, hword⟩, Int.toNat_natCast]

/-- **A lease that expires gives back the duration it was granted for**, to the second. -/
theorem duration_grant (hi : i.isLeap = false) (he : e.isLeap = false)
    (h : e.nanos = i.nanos + d.toNat * secondNanos) :
    (grant ⟨token, some d⟩ i).duration = some d := by
  have hexpiry : (grant ⟨token, some d⟩ i).expiresAt = some e := by
    rw [expiresAt_grant_of_not_leap hi, ofNanos?_eq_some_iff]
    exact ⟨he, h⟩
  rw [duration_eq_some hexpiry (secondsSince_of_nanos_eq hi he h) d.toNat_lt, UInt64.ofNat_toNat]

/-- The threshold of a word of seconds leads back. -/
theorem nanos_thresholdOf_nonneg (t : UInt64) : 0 ≤ (Method.thresholdOf t).nanos := by
  rw [Method.thresholdOf]
  cases ht : Span.ofWord? t with
  | some s =>
    rw [Option.getD_some, Span.nanos_of_ofWord? ht, secondNanos]
    omega
  | none =>
    rw [Option.getD_none, Span.nanos_greatest]
    decide

/-- An expiring lease is due exactly if the clock and the threshold together reach its expiry. -/
theorem isDue_iff_le {l : Lease} (hl : l.expiresAt = some e) (now : Timestamp) :
    l.isDue now (Method.thresholdOf t) = true ↔
      e.nanos ≤ e.countAt now + t.toNat * secondNanos := by
  have hon := not_isBeyondCalendar_of_nonneg (e := e) (nanos_thresholdOf_nonneg t)
  rw [isDue_iff_reached hl, or_iff_left hon, Method.thresholdOf]
  cases ht : Span.ofWord? t with
  | some s =>
    rw [Option.getD_some, Span.nanos_of_ofWord? ht]
    omega
  | none =>
    -- the calendar is shorter than the longest span, and that is shorter than the word
    have hlong := Span.lt_of_ofWord?_eq_none ht
    have hnow := countAt_bounds e now
    have hend := nanos_le_lastCount e
    have hlast := lastCount_bounds e
    rw [Option.getD_none, Span.nanos_greatest]
    omega

/-- **A lease is due exactly if it expires on the calendar and the clock and the threshold together
reach that**, whatever the size of the three. -/
theorem isDue_grant_iff (hnow : now.isLeap = false) (hi : i.isLeap = false) :
    (grant ⟨token, some d⟩ i).isDue now (Method.thresholdOf t) = true ↔
      IsOnCalendar (i.nanos + d.toNat * secondNanos) ∧
        i.nanos + d.toNat * secondNanos ≤ now.nanos + t.toNat * secondNanos := by
  by_cases hcalendar : IsOnCalendar (i.nanos + d.toNat * secondNanos)
  · obtain ⟨e, he, hnanos⟩ := hcalendar
    have hexpiry : (grant ⟨token, some d⟩ i).expiresAt = some e := by
      rw [expiresAt_grant_of_not_leap hi, ofNanos?_eq_some_iff]
      exact ⟨he, hnanos⟩
    rw [isDue_iff_le hexpiry, countAt_eq_nanos he hnow, ← hnanos]
    exact ⟨fun hle => ⟨⟨e, he, rfl⟩, hle⟩, And.right⟩
  · have hexpiry : (grant ⟨token, some d⟩ i).expiresAt = none := by
      rw [expiresAt_grant_of_not_leap hi, ofNanos?_eq_none_iff]
      exact hcalendar
    constructor
    · intro hdue
      obtain ⟨e, he, -⟩ := (isDue_iff _ _ _).mp hdue
      rw [hexpiry] at he
      cases he
    · rintro ⟨hon, -⟩
      exact absurd hon hcalendar

end Lease

/-! ### After any history -/

namespace Standing

open Timestamp

/-- What is left behind by some exchanges, from before the first one on. -/
def after (records : List (Timestamp × Except Failure Issued)) : Standing :=
  records.foldl (fun s r => s.record r.1 r.2) initial

/-- Exchanges that have all failed. -/
def failed (failures : List (Timestamp × Failure)) : List (Timestamp × Except Failure Issued) :=
  failures.map fun f => (f.1, .error f.2)

/-- Failures keep the lease. -/
theorem lease_foldl_failed (s : Standing) (failures : List (Timestamp × Failure)) :
    ((failed failures).foldl (fun s r => s.record r.1 r.2) s).lease = s.lease := by
  induction failures generalizing s with
  | nil => rfl
  | cons f rest ih => exact ih (s.record f.1 (.error f.2))

/-- The lease is that of the last success, whatever has failed since. -/
theorem lease_after (before : List (Timestamp × Except Failure Issued)) (i : Timestamp)
    (issued : Issued) (failures : List (Timestamp × Failure)) :
    (after (before ++ (i, .ok issued) :: failed failures)).lease = some (Lease.grant issued i) := by
  rw [after, List.foldl_append, List.foldl_cons, lease_foldl_failed]
  rfl

/-- **When a token has to be renewed.** Before the first success it always has to be, however many
exchanges have failed. After a success it depends on the lease of the last one alone, whatever has
failed since: it has to be renewed exactly if the lease ends on the calendar and what the clock
shows, with the threshold added, is no earlier than that end. The lease expires at that end and
tells the duration it was granted for, or, if the calendar does not reach so far, it has neither.
All sums are those of whole numbers, without a bound. -/
theorem renewal_decided (t : UInt64) {now : Timestamp} (hnow : now.isLeap = false)
    (failures : List (Timestamp × Failure)) :
    (after (failed failures)).needsLogin now (Method.thresholdOf t) = true ∧
      ∀ (before : List (Timestamp × Except Failure Issued)) (i : Timestamp) (token : String)
        (d : UInt64), i.isLeap = false →
        let s := after (before ++ (i, .ok ⟨token, some d⟩) :: failed failures)
        let expiry := i.nanos + d.toNat * secondNanos
        (s.needsLogin now (Method.thresholdOf t) = true ↔
          IsOnCalendar expiry ∧ expiry ≤ now.nanos + t.toNat * secondNanos) ∧
        ∃ l, s.lease = some l ∧ l.token = token ∧ l.issuedAt = i ∧
          (∀ e : Timestamp, e.isLeap = false → e.nanos = expiry →
            l.expiresAt = some e ∧ l.duration = some d) ∧
          (¬IsOnCalendar expiry → l.expiresAt = none ∧ l.duration = none) := by
  refine ⟨?_, ?_⟩
  · have hnone : (after (failed failures)).lease = none := lease_foldl_failed initial failures
    rw [needsLogin, hnone]
  intro before i token d hi s expiry
  have hlease : s.lease = some (Lease.grant ⟨token, some d⟩ i) := lease_after ..
  refine ⟨?_, Lease.grant ⟨token, some d⟩ i, hlease, rfl, rfl, ?_, ?_⟩
  · rw [needsLogin, hlease]
    exact Lease.isDue_grant_iff hnow hi
  · intro e he hnanos
    refine ⟨?_, Lease.duration_grant hi he hnanos⟩
    rw [Lease.expiresAt_grant_of_not_leap hi, ofNanos?_eq_some_iff]
    exact ⟨he, hnanos⟩
  · intro hoff
    have hexpiry : (Lease.grant ⟨token, some d⟩ i).expiresAt = none := by
      rw [Lease.expiresAt_grant_of_not_leap hi, ofNanos?_eq_none_iff]
      exact hoff
    exact ⟨hexpiry, by rw [Lease.duration, hexpiry, Option.bind_none]⟩

/-- A lease of a minute with a threshold of half of it is due half a minute after its issue,
although an exchange has failed since, and a lease beyond the calendar never is. -/
theorem renewal_decided_minute :
    (atSecond 1700000030).isLeap = false ∧ (atSecond 1700000000).isLeap = false ∧
      (after ((atSecond 1700000000, .ok ⟨"s.token", some 60⟩) ::
        failed [(atSecond 1700000010, .network "refused")])).needsLogin (atSecond 1700000030)
          (Method.thresholdOf 30) = true ∧
      (after ((atSecond 1700000000, .ok ⟨"s.token", some 18446744073709551615⟩) ::
        failed [(atSecond 1700000010, .network "refused")])).needsLogin (atSecond 1700000030)
          (Method.thresholdOf 30) = false := by
  have hnow : (atSecond 1700000030).isLeap = false := by decide
  have hi : (atSecond 1700000000).isLeap = false := by decide
  have h := (renewal_decided 30 hnow [(atSecond 1700000010, .network "refused")]).2 []
    (atSecond 1700000000) "s.token"
  refine ⟨hnow, hi, (h 60 hi).1.mpr ⟨⟨atSecond 1700000060, by decide, by decide⟩, by decide⟩, ?_⟩
  refine Bool.eq_false_iff.mpr fun hdue => ?_
  have hcalendar := ((h 18446744073709551615 hi).1.mp hdue).1
  rw [← isSome_ofNanos?_iff] at hcalendar
  exact absurd hcalendar (by decide)

end Standing

end VaultTokens
