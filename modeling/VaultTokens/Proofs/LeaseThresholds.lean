import VaultTokens.Lease

/-!
# When a lease is due, for a threshold of any sign

A lease is due once the instant a threshold ahead of its expiry has been reached. The threshold is
any span, so that this instant may also come after the expiry, and be off the calendar at either
end. An instant that the calendar does not have is compared with nothing: the lease counts as due.

Before the calendar that is right, since everything on it comes later. Beyond the calendar it is
not, since nothing on it comes so late. The decision is therefore the one that numbers without any
bound would give for exactly those thresholds that do not lead beyond the calendar. One that does
makes a lease due at all times, even at times at which it is not due for a longer threshold.

## Counting through leap seconds

The order of instants is that of their nanoseconds outside of leap seconds only. Calendar time
counts a leap second just for the instant that it sets out from. So each instant `e` has a count of
its own, `e.countAt`, which goes on during the leap second that `e` lies in, if it does, and stands
still during every other one. On this count a span is always as long as it says, and instants come
in the order of the calendar. With it no time has to be left out.

## Main results

* `Timestamp.counts_of_shift?`, `Timestamp.outside_of_shift?_eq_none` — what is a span away has the
  count that far away; where nothing is, that count is outside of the calendar
* `Timestamp.le_iff_countAt_le` — instants are compared by their counts
* `Lease.isDue_iff_reached` — when a lease is due
* `Lease.threshold_reached` — for which thresholds that is exact
-/

namespace VaultTokens

namespace Timestamp

variable {e t u : Timestamp} {n : Int}

theorem isLeap_iff : t.isLeap = true ↔ 1000000000 ≤ t.subsecond := by
  rw [isLeap, decide_eq_true_eq]

theorem subsecond_lt_of_not_leap (ht : t.isLeap = false) : t.subsecond < 1000000000 := by
  simpa [isLeap] using ht

/-- No instant is before the first one of the calendar. -/
theorem first_le_nanos (t : Timestamp) : -8334601228800000000000 ≤ t.nanos := by
  have hfirst := t.ge_first
  rw [nanos, secondNanos]
  omega

theorem ofUnix?_eq_some_iff {secs : Int} {nanos : Nat} :
    ofUnix? secs nanos = some t ↔ t.seconds = secs ∧ t.subsecond = nanos := by
  constructor
  · intro h
    rw [ofUnix?] at h
    split at h
    · cases h
      exact ⟨rfl, rfl⟩
    · cases h
  · rintro ⟨rfl, rfl⟩
    rw [ofUnix?, dif_pos ⟨t.ge_first, t.le_last, t.subsecond_lt⟩]

theorem outside_of_ofNanos?_eq_none (h : ofNanos? n = none) :
    n < -8334601228800000000000 ∨ 8210266876799999999999 < n := by
  have hout : ¬(-8334601228800000000000 ≤ n ∧ n ≤ 8210266876799999999999) := by
    rw [← ofNanos?_isSome_iff, h]
    decide
  omega

/-! ### Ways out of a leap second -/

theorem shift?_within (ht : t.isLeap = true) (hfrom : 1000000000 ≤ t.subsecond + n)
    (hto : t.subsecond + n < 2000000000) :
    t.shift? n = ofUnix? t.seconds (t.subsecond + n).toNat := by
  rw [shift?, if_pos ⟨ht, hfrom, hto⟩]

/-- From within a leap second the way forward leads over what is left of it. -/
theorem shift?_onward (ht : t.isLeap = true) (hto : 2000000000 ≤ t.subsecond + n) :
    t.shift? n = ofNanos? (t.nanos + n - secondNanos) := by
  have hlt := t.subsecond_lt
  rw [shift?, if_neg (by omega), if_pos ⟨ht, by omega⟩]

/-- The way back leads over what has passed of it. -/
theorem shift?_back (ht : t.isLeap = true) (hto : t.subsecond + n < 1000000000) :
    t.shift? n = ofNanos? (t.nanos + n) := by
  rw [isLeap_iff] at ht
  rw [shift?, if_neg (by omega), if_neg (by omega)]

/-! ### The count of an instant -/

/-- The nanoseconds since the first instant of 1970, on a count that stands still during every leap
second. -/
def regularNanos (t : Timestamp) : Int := t.seconds * secondNanos + min t.subsecond 999999999

/-- The nanoseconds since the first instant of 1970 at an instant `t`, on a count that goes on
during the leap second in which `e` lies, if it does, and stands still during all others. -/
def countAt (e t : Timestamp) : Int :=
  if e.isLeap ∧ t.seconds = e.seconds then t.nanos
  else if e.isLeap ∧ e.seconds < t.seconds then t.regularNanos + secondNanos
  else t.regularNanos

/-- Whether the count of `e` goes on at an instant: it lies in no leap second but that of `e`. -/
def Counts (e t : Timestamp) : Prop :=
  t.isLeap = true → e.isLeap = true ∧ t.seconds = e.seconds

theorem counts_of_not_leap (ht : t.isLeap = false) : e.Counts t := by
  intro hleap
  rw [ht] at hleap
  cases hleap

theorem regularNanos_of_not_leap (ht : t.isLeap = false) : t.regularNanos = t.nanos := by
  have hsub := subsecond_lt_of_not_leap ht
  rw [regularNanos, nanos, Nat.min_eq_left (Nat.le_of_lt_succ hsub)]

theorem countAt_of_not_leap (he : e.isLeap = false) (t : Timestamp) :
    e.countAt t = t.regularNanos := by
  simp [countAt, he]

/-- At its own instant a count is the usual one. -/
theorem countAt_self (e : Timestamp) : e.countAt e = e.nanos := by
  cases he : e.isLeap with
  | false => rw [countAt_of_not_leap he, regularNanos_of_not_leap he]
  | true => rw [countAt, if_pos ⟨he, rfl⟩]

/-- Outside of leap seconds the count is the usual one. -/
theorem countAt_eq_nanos (he : e.isLeap = false) (ht : t.isLeap = false) :
    e.countAt t = t.nanos := by
  rw [countAt_of_not_leap he, regularNanos_of_not_leap ht]

theorem countAt_cases (he : e.isLeap = true) (t : Timestamp) :
    (t.seconds < e.seconds ∧ e.countAt t = t.regularNanos) ∨
      (t.seconds = e.seconds ∧ e.countAt t = t.nanos) ∨
        (e.seconds < t.seconds ∧ e.countAt t = t.regularNanos + secondNanos) := by
  rcases Int.lt_trichotomy t.seconds e.seconds with hlt | heq | hgt
  · refine .inl ⟨hlt, ?_⟩
    rw [countAt, if_neg fun h => Int.ne_of_lt hlt h.2, if_neg fun h => Int.lt_asymm hlt h.2]
  · refine .inr (.inl ⟨heq, ?_⟩)
    rw [countAt, if_pos ⟨he, heq⟩]
  · refine .inr (.inr ⟨hgt, ?_⟩)
    rw [countAt, if_neg fun h => Int.ne_of_gt hgt h.2, if_pos ⟨he, hgt⟩]

/-- After a leap second the count of an instant in it is one second ahead, and not before. -/
theorem countAt_of_leap (he : e.isLeap = true) (ht : t.isLeap = false) :
    (t.nanos < (e.seconds + 1) * secondNanos → e.countAt t = t.nanos) ∧
      ((e.seconds + 1) * secondNanos ≤ t.nanos → e.countAt t = t.nanos + secondNanos) := by
  have hsub := subsecond_lt_of_not_leap ht
  have hcases := countAt_cases he t
  rw [regularNanos_of_not_leap ht] at hcases
  simp only [nanos, secondNanos] at hcases ⊢
  omega

/-- A later instant has no smaller count. -/
theorem countAt_le_of_le (e : Timestamp) (h : t ≤ u) : e.countAt t ≤ e.countAt u := by
  have ht := t.subsecond_lt
  rw [le_def] at h
  cases he : e.isLeap with
  | false =>
    rw [countAt_of_not_leap he, countAt_of_not_leap he]
    simp only [regularNanos, secondNanos]
    omega
  | true =>
    have htCount := countAt_cases he t
    have huCount := countAt_cases he u
    simp only [regularNanos, nanos, secondNanos] at htCount huCount
    omega

/-- **Instants are compared by their counts**, with one at which the count goes on. -/
theorem le_iff_countAt_le (hu : e.Counts u) (t : Timestamp) :
    u ≤ t ↔ e.countAt u ≤ e.countAt t := by
  refine ⟨countAt_le_of_le e, fun h => ?_⟩
  have ht := t.subsecond_lt
  rw [le_def]
  cases he : e.isLeap with
  | false =>
    have hsub : u.subsecond < 1000000000 := by
      refine Nat.lt_of_not_le fun hleap => ?_
      simpa [he] using hu (isLeap_iff.mpr hleap)
    rw [countAt_of_not_leap he, countAt_of_not_leap he] at h
    simp only [regularNanos, secondNanos] at h
    omega
  | true =>
    have hsub : 1000000000 ≤ u.subsecond → u.seconds = e.seconds := fun hleap =>
      (hu (isLeap_iff.mpr hleap)).2
    have htCount := countAt_cases he t
    have huCount := countAt_cases he u
    simp only [regularNanos, nanos, secondNanos] at htCount huCount
    omega

/-! ### The end of the calendar -/

/-- The greatest count that there is on the calendar. -/
def lastCount (e : Timestamp) : Int := 8210266876799999999999 + if e.isLeap then secondNanos else 0

theorem lastCount_of_not_leap (he : e.isLeap = false) : e.lastCount = 8210266876799999999999 := by
  simp [lastCount, he]

theorem lastCount_of_leap (he : e.isLeap = true) : e.lastCount = 8210266876800999999999 := by
  simp [lastCount, he, secondNanos]

theorem lastCount_bounds (e : Timestamp) :
    8210266876799999999999 ≤ e.lastCount ∧ e.lastCount ≤ 8210266876800999999999 := by
  cases he : e.isLeap with
  | false => simp [lastCount_of_not_leap he]
  | true => simp [lastCount_of_leap he]

/-- Whether a count is greater than that of every instant on the calendar. -/
def IsBeyondCalendar (e : Timestamp) (n : Int) : Prop := ∀ t : Timestamp, e.countAt t < n

theorem countAt_bounds (e t : Timestamp) :
    -8334601228800000000000 ≤ e.countAt t ∧ e.countAt t ≤ e.lastCount := by
  have hfirst := t.ge_first
  have hlast := t.le_last
  have hsub := t.subsecond_lt
  cases he : e.isLeap with
  | false =>
    rw [countAt_of_not_leap he, lastCount_of_not_leap he, regularNanos, secondNanos]
    omega
  | true =>
    have heLast := e.le_last
    have hcases := countAt_cases he t
    simp only [regularNanos, nanos, secondNanos] at hcases
    rw [lastCount_of_leap he]
    omega

theorem nanos_le_lastCount (e : Timestamp) : e.nanos ≤ e.lastCount := by
  rw [← countAt_self]
  exact (countAt_bounds e e).2

/-- The last instant that the calendar has, at the end of a leap second. -/
def lastInstant : Timestamp := ⟨8210266876799, 1999999999, by decide, by decide, by decide⟩

/-- The greatest count is that of the last instant. -/
theorem countAt_lastInstant (e : Timestamp) : e.countAt lastInstant = e.lastCount := by
  have hseconds : lastInstant.seconds = 8210266876799 := rfl
  have hsub : lastInstant.subsecond = 1999999999 := rfl
  cases he : e.isLeap with
  | false =>
    rw [countAt_of_not_leap he, lastCount_of_not_leap he, regularNanos, secondNanos, hseconds, hsub]
    rfl
  | true =>
    have heLast := e.le_last
    have hcases := countAt_cases he lastInstant
    simp only [regularNanos, nanos, secondNanos, hseconds, hsub] at hcases
    rw [lastCount_of_leap he]
    omega

/-- The calendar goes on after 1970, whatever is counted. -/
theorem countAt_epoch_lt (e : Timestamp) : e.countAt epoch < e.lastCount := by
  have hlast := lastCount_bounds e
  have hseconds : epoch.seconds = 0 := rfl
  have hsub : epoch.subsecond = 0 := rfl
  cases he : e.isLeap with
  | false =>
    rw [countAt_of_not_leap he, regularNanos, hseconds, hsub]
    omega
  | true =>
    have hcases := countAt_cases he epoch
    simp only [regularNanos, nanos, secondNanos, hseconds, hsub] at hcases
    omega

theorem isBeyondCalendar_iff : IsBeyondCalendar e n ↔ e.lastCount < n := by
  constructor
  · intro h
    rw [← countAt_lastInstant]
    exact h lastInstant
  · intro h t
    exact Int.lt_of_le_of_lt (countAt_bounds e t).2 h

/-! ### Spans away -/

/-- **An instant some nanoseconds away has the count that far away.** -/
theorem counts_of_shift? (h : e.shift? n = some u) :
    e.Counts u ∧ e.countAt u = e.nanos + n := by
  cases he : e.isLeap with
  | false =>
    rw [shift?_of_not_leap he] at h
    have hu := isLeap_of_ofNanos? h
    rw [countAt_eq_nanos he hu]
    exact ⟨counts_of_not_leap hu, nanos_of_ofNanos? h⟩
  | true =>
    have hsub := isLeap_iff.mp he
    by_cases hback : e.subsecond + n < 1000000000
    · rw [shift?_back he hback] at h
      have hu := isLeap_of_ofNanos? h
      have hbefore : e.nanos + n < (e.seconds + 1) * secondNanos := by
        simp only [nanos, secondNanos]
        omega
      rw [← nanos_of_ofNanos? h] at hbefore ⊢
      exact ⟨counts_of_not_leap hu, (countAt_of_leap he hu).1 hbefore⟩
    by_cases hwithin : e.subsecond + n < 2000000000
    · rw [shift?_within he (by omega) hwithin, ofUnix?_eq_some_iff] at h
      obtain ⟨hseconds, hsubsecond⟩ := h
      refine ⟨fun _ => ⟨he, hseconds⟩, ?_⟩
      rw [countAt, if_pos ⟨he, hseconds⟩, nanos, nanos, hseconds, hsubsecond]
      omega
    · rw [shift?_onward he (by omega)] at h
      have hu := isLeap_of_ofNanos? h
      have hnanos := nanos_of_ofNanos? h
      have hbehind : (e.seconds + 1) * secondNanos ≤ u.nanos := by
        rw [hnanos]
        simp only [nanos, secondNanos]
        omega
      refine ⟨counts_of_not_leap hu, ?_⟩
      rw [(countAt_of_leap he hu).2 hbehind, hnanos]
      omega

/-- **Where there is no instant some nanoseconds away**, the count that far away is before the
calendar or beyond it. -/
theorem outside_of_shift?_eq_none (h : e.shift? n = none) :
    e.nanos + n < -8334601228800000000000 ∨ e.lastCount < e.nanos + n := by
  cases he : e.isLeap with
  | false =>
    rw [shift?_of_not_leap he] at h
    have hout := outside_of_ofNanos?_eq_none h
    rw [lastCount_of_not_leap he]
    omega
  | true =>
    have hfirst := e.ge_first
    have hlast := e.le_last
    have hsub := e.subsecond_lt
    by_cases hback : e.subsecond + n < 1000000000
    · rw [shift?_back he hback] at h
      have hout := outside_of_ofNanos?_eq_none h
      simp only [nanos, secondNanos] at hout ⊢
      omega
    by_cases hwithin : e.subsecond + n < 2000000000
    · -- within the leap second nothing is missing
      rw [shift?_within he (by omega) hwithin] at h
      have hsome : (ofUnix? e.seconds (e.subsecond + n).toNat).isSome = true := by
        rw [ofUnix?_isSome_iff]
        rw [isLeap_iff] at he
        omega
      rw [h] at hsome
      cases hsome
    · rw [shift?_onward he (by omega)] at h
      have hout := outside_of_ofNanos?_eq_none h
      rw [lastCount_of_leap he]
      simp only [nanos, secondNanos] at hout ⊢
      omega

end Timestamp

/-! ### When a lease is due -/

namespace Lease

open Timestamp

variable {l : Lease} {e : Timestamp}

/-- **A lease is due once the count has reached that of its expiry, less the threshold**, and always
if that is beyond the calendar. -/
theorem isDue_iff_reached (hl : l.expiresAt = some e) (threshold : Span) (now : Timestamp) :
    l.isDue now threshold = true ↔
      e.nanos - threshold.nanos ≤ e.countAt now ∨
        IsBeyondCalendar e (e.nanos - threshold.nanos) := by
  rw [isDue_iff, Int.sub_eq_add_neg]
  simp only [hl, Option.some.injEq, exists_eq_left']
  cases hs : e.sub? threshold with
  | none =>
    have hbounds := countAt_bounds e now
    refine iff_of_true (fun renewAt h => by cases h) ?_
    rw [isBeyondCalendar_iff]
    obtain hbefore | hbeyond := outside_of_shift?_eq_none hs
    · left
      omega
    · exact .inr hbeyond
  | some renewAt =>
    obtain ⟨hcounts, hcount⟩ := counts_of_shift? hs
    have hon : ¬IsBeyondCalendar e (e.nanos + -threshold.nanos) := fun h =>
      Int.ne_of_lt (h renewAt) hcount
    rw [or_iff_left hon, ← hcount, ← le_iff_countAt_le hcounts]
    simp only [Option.some.injEq, forall_eq']

/-- What is no later than an expiry is not beyond the calendar. -/
theorem not_isBeyondCalendar_of_nonneg {threshold : Span} (h : 0 ≤ threshold.nanos) :
    ¬IsBeyondCalendar e (e.nanos - threshold.nanos) := by
  intro hbeyond
  have hself := hbeyond e
  rw [countAt_self] at hself
  omega

/-- A lease that is due stays due. -/
theorem isDue_of_le (hl : l.expiresAt = some e) {threshold : Span} {now later : Timestamp}
    (hle : now ≤ later) (hdue : l.isDue now threshold = true) : l.isDue later threshold = true := by
  rw [isDue_iff_reached hl] at hdue ⊢
  exact hdue.imp_left fun hreached => Int.le_trans hreached (countAt_le_of_le e hle)

/-- A lease that is due for a threshold is due for any longer one, unless the first one leads beyond
the calendar. -/
theorem isDue_of_longer (hl : l.expiresAt = some e) {threshold longer : Span} {now : Timestamp}
    (hon : ¬IsBeyondCalendar e (e.nanos - threshold.nanos))
    (hle : threshold.nanos ≤ longer.nanos) (hdue : l.isDue now threshold = true) :
    l.isDue now longer = true := by
  rw [isDue_iff_reached hl, or_iff_left hon] at hdue
  rw [isDue_iff_reached hl]
  left
  omega

/-- A span leads back from an instant, or onward, to the end of the calendar. -/
theorem exists_span_to_last (e : Timestamp) : ∃ s : Span, e.nanos - s.nanos = e.lastCount := by
  have hfirst := first_le_nanos e
  have hend := nanos_le_lastCount e
  have hlast := lastCount_bounds e
  exact ⟨⟨e.nanos - e.lastCount, by omega, by omega⟩, Int.sub_sub_self _ _⟩

/-- For a threshold that leads beyond the calendar a lease is due even when it is not due for some
longer one. -/
theorem exists_longer_not_due (hl : l.expiresAt = some e) {threshold : Span}
    (hbeyond : IsBeyondCalendar e (e.nanos - threshold.nanos)) :
    ∃ longer : Span, threshold.nanos ≤ longer.nanos ∧ ∃ now,
      l.isDue now threshold = true ∧ l.isDue now longer = false := by
  have hshort := isBeyondCalendar_iff.mp hbeyond
  -- the longer one leads to the end of the calendar, and 1970 is long before that
  obtain ⟨longer, hend⟩ := exists_span_to_last e
  refine ⟨longer, by omega, epoch, (isDue_iff_reached hl _ _).mpr (.inr hbeyond), ?_⟩
  rw [Bool.eq_false_iff, ne_eq, isDue_iff_reached hl, hend, isBeyondCalendar_iff]
  have hepoch := countAt_epoch_lt e
  omega

/-- **When a lease is due, for a threshold of any sign.** The time to renew it is its expiry less
the threshold, in numbers without any bound. The lease is due once that is reached, and always if it
is beyond the calendar. So the decision is exact for those thresholds that do not lead beyond the
calendar, and for no others; for the same ones, and no others, a lease that is due is due for every
longer threshold as well. A threshold that does not lead beyond the expiry is always one of them.
Whatever the threshold is, a lease that is due stays due. Without leap seconds the count is the
usual one, and the calendar ends with its last nanosecond. -/
theorem threshold_reached (hl : l.expiresAt = some e) (threshold : Span) :
    let renewAt := e.nanos - threshold.nanos
    (∀ now, l.isDue now threshold = true ↔
      renewAt ≤ e.countAt now ∨ IsBeyondCalendar e renewAt) ∧
    ((∀ now, l.isDue now threshold = true ↔ renewAt ≤ e.countAt now) ↔
      ¬IsBeyondCalendar e renewAt) ∧
    ((∀ longer : Span, threshold.nanos ≤ longer.nanos → ∀ now, l.isDue now threshold = true →
      l.isDue now longer = true) ↔ ¬IsBeyondCalendar e renewAt) ∧
    (0 ≤ threshold.nanos → ¬IsBeyondCalendar e renewAt) ∧
    (∀ now later, now ≤ later → l.isDue now threshold = true → l.isDue later threshold = true) ∧
    (e.isLeap = false →
      (IsBeyondCalendar e renewAt ↔ 8210266876799999999999 < renewAt) ∧
        ∀ now : Timestamp, now.isLeap = false → e.countAt now = now.nanos) := by
  intro renewAt
  refine ⟨isDue_iff_reached hl threshold, ⟨fun hexact hbeyond => ?_, fun hon now => ?_⟩,
    ⟨fun hlonger hbeyond => ?_, fun hon longer hle now => isDue_of_longer hl hon hle⟩,
    not_isBeyondCalendar_of_nonneg, fun now later => isDue_of_le hl,
    fun he => ⟨?_, fun now hnow => countAt_eq_nanos he hnow⟩⟩
  · have hdue : l.isDue e threshold = true := (isDue_iff_reached hl threshold e).mpr (.inr hbeyond)
    exact Int.not_lt.mpr ((hexact e).mp hdue) (hbeyond e)
  · rw [isDue_iff_reached hl, or_iff_left hon]
  · obtain ⟨longer, hle, now, hdue, hnot⟩ := exists_longer_not_due hl hbeyond
    rw [hlonger longer hle now hdue] at hnot
    cases hnot
  · rw [isBeyondCalendar_iff, lastCount_of_not_leap he]

/-- A lease of a minute. -/
def minuteLease : Lease := grant ⟨"s.token", some 60⟩ (atSecond 1700000000)

/-- Half a minute. -/
def halfMinute : Span := ⟨30000000000, by decide, by decide⟩

/-- A lease of a minute is due half a minute before its expiry and not a second earlier. With the
longest span into the past for a threshold it is due from the beginning of the calendar on. -/
theorem threshold_reached_minute :
    minuteLease.expiresAt = some (atSecond 1700000060) ∧
      minuteLease.isDue (atSecond 1700000030) halfMinute = true ∧
      minuteLease.isDue (atSecond 1700000029) halfMinute = false ∧
      minuteLease.isDue (atSecond (-8334601228800)) Span.least = true := by
  have hl : minuteLease.expiresAt = some (atSecond 1700000060) := by decide
  have hhalf := (threshold_reached hl halfMinute).2.1.mpr
    ((threshold_reached hl halfMinute).2.2.2.1 (by decide))
  have hleast := (threshold_reached hl Span.least).1 (atSecond (-8334601228800))
  refine ⟨hl, (hhalf _).mpr (by decide), ?_, hleast.mpr (.inr ?_)⟩
  · rw [Bool.eq_false_iff, ne_eq, hhalf]
    decide
  · rw [((threshold_reached hl Span.least).2.2.2.2.2 (by decide)).1]
    decide

/-- **A lease is due ages before it should be.** One that has just been granted for a minute is due
with the longest span into the past for a threshold, although the time to renew it is beyond the
calendar, and it is not due for half a minute, which is a longer threshold. -/
theorem due_ages_before :
    minuteLease.expiresAt = some (atSecond 1700000060) ∧
      minuteLease.isDue (atSecond 1700000000) Span.least = true ∧
      (atSecond 1700000000).nanos < (atSecond 1700000060).nanos - Span.least.nanos ∧
      Span.least.nanos ≤ halfMinute.nanos ∧
      minuteLease.isDue (atSecond 1700000000) halfMinute = false := by
  decide

end Lease

end VaultTokens
