/-!
# Calendar time

Points on the calendar clock and the lengths between them, both exact to the nanosecond and both
bounded: the calendar covers a fixed range of years, and a span is at most the greatest signed word
of milliseconds long, in either direction. Every operation that can leave its range says so with
`none`; none of them clamps.

The last second of a minute may be followed by a leap second. It has no number among the seconds:
its nanoseconds are counted on behind those of the second before it. Nothing lists the leap seconds
that there were: a length of time counts one only where it begins or ends in it.

Main statements: `nanos_of_add?` and `nanos_of_sub?` (outside of leap seconds a result is exact),
`add?_isSome_iff`, `sub?_isSome_iff` (there is one exactly if it lies on the calendar), and
`le_iff_nanos_le` (the order is that of the exact times).
-/

namespace VaultTokens

/-- Nanoseconds in a second, as a signed number. -/
def secondNanos : Int := 1000000000

/-- A signed length of calendar time. -/
structure Span where
  /-- The length in nanoseconds. -/
  nanos : Int
  /-- No span is longer into the past than the greatest word of milliseconds. -/
  ge_least : -9223372036854775807000000 ≤ nanos
  /-- No span is longer into the future than the greatest word of milliseconds. -/
  le_greatest : nanos ≤ 9223372036854775807000000
  deriving DecidableEq

namespace Span

/-- The longest span into the future. -/
def greatest : Span := ⟨9223372036854775807000000, by decide, by decide⟩

/-- The longest span into the past. -/
def least : Span := ⟨-9223372036854775807000000, by decide, by decide⟩

/-- A span of whole seconds, if it is not too long. -/
def ofSeconds? (secs : Int) : Option Span :=
  if h : -9223372036854775807000000 ≤ secs * secondNanos ∧
      secs * secondNanos ≤ 9223372036854775807000000 then
    some ⟨secs * secondNanos, h.1, h.2⟩
  else none

theorem nanos_of_ofSeconds? {secs : Int} {s : Span} (h : ofSeconds? secs = some s) :
    s.nanos = secs * secondNanos := by
  rw [ofSeconds?] at h
  split at h <;> simp at h
  rw [← h]

end Span

/-- A point on the calendar clock. -/
structure Timestamp where
  /-- Whole seconds since the first instant of 1970, universal time. -/
  seconds : Int
  /-- Nanoseconds beyond them; in a leap second they go on behind a full second. -/
  subsecond : Nat
  /-- The calendar has a first instant. -/
  ge_first : -8334601228800 ≤ seconds
  /-- The calendar has a last second. -/
  le_last : seconds ≤ 8210266876799
  /-- Only behind the last second of a minute there is room for a leap second. -/
  subsecond_lt : subsecond < 1000000000 ∨ (subsecond < 2000000000 ∧ seconds % 60 = 59)
  deriving DecidableEq

namespace Timestamp

/-- The first instant of 1970. -/
def epoch : Timestamp := ⟨0, 0, by decide, by decide, by decide⟩

/-- Nanoseconds since the first instant of 1970. A leap second shares its numbers with the second
behind it. -/
def nanos (t : Timestamp) : Int := t.seconds * secondNanos + t.subsecond

/-- Whether an instant lies in a leap second. -/
def isLeap (t : Timestamp) : Bool := 1000000000 ≤ t.subsecond

/-- The instant of a Unix time, if the calendar has it. -/
def ofUnix? (secs : Int) (nanos : Nat) : Option Timestamp :=
  if h : -8334601228800 ≤ secs ∧ secs ≤ 8210266876799 ∧
      (nanos < 1000000000 ∨ (nanos < 2000000000 ∧ secs % 60 = 59)) then
    some ⟨secs, nanos, h.1, h.2.1, h.2.2⟩
  else none

/-- The instant so many nanoseconds after the beginning of 1970, if the calendar has it. -/
def ofNanos? (n : Int) : Option Timestamp :=
  ofUnix? (n / secondNanos) (n % secondNanos).toNat

/-- The instant of a Unix time in whole seconds; outside the calendar, the beginning of 1970. -/
def atSecond (secs : Int) : Timestamp := (ofUnix? secs 0).getD epoch

/-- The instant so many nanoseconds later, if the calendar has it. From within a leap second the
way forward leads over what is left of it, the way back over what has passed of it. -/
def shift? (t : Timestamp) (n : Int) : Option Timestamp :=
  let within := t.subsecond + n
  if t.isLeap ∧ 1000000000 ≤ within ∧ within < 2000000000 then ofUnix? t.seconds within.toNat
  else if t.isLeap ∧ 0 < n then ofNanos? (t.nanos + n - secondNanos)
  else ofNanos? (t.nanos + n)

/-- The instant a span later, if the calendar has it. -/
def add? (t : Timestamp) (s : Span) : Option Timestamp := t.shift? s.nanos

/-- The instant a span earlier, if the calendar has it. -/
def sub? (t : Timestamp) (s : Span) : Option Timestamp := t.shift? (-s.nanos)

/-- The instant whole seconds later, if there are such a span and such an instant. -/
def advance? (t : Timestamp) (secs : Int) : Option Timestamp :=
  (Span.ofSeconds? secs).bind t.add?

/-- Seconds since midnight. -/
def timeOfDay (t : Timestamp) : Int := t.seconds % 86400

/-- The whole seconds between two instants, rounded toward zero. A leap second is counted for the
one of them that lies in it, if the other one is the later, or the earlier, by its time of day. -/
def secondsSince (later earlier : Timestamp) : Int :=
  let leap :=
    if earlier.isLeap ∧ earlier.timeOfDay < later.timeOfDay then secondNanos
    else if later.isLeap ∧ later.timeOfDay < earlier.timeOfDay then -secondNanos
    else 0
  (later.nanos - earlier.nanos + leap).tdiv secondNanos

instance : LE Timestamp :=
  ⟨fun a b => a.seconds < b.seconds ∨ (a.seconds = b.seconds ∧ a.subsecond ≤ b.subsecond)⟩

instance (a b : Timestamp) : Decidable (a ≤ b) :=
  inferInstanceAs
    (Decidable (a.seconds < b.seconds ∨ (a.seconds = b.seconds ∧ a.subsecond ≤ b.subsecond)))

theorem le_def (a b : Timestamp) :
    a ≤ b ↔ a.seconds < b.seconds ∨ (a.seconds = b.seconds ∧ a.subsecond ≤ b.subsecond) := Iff.rfl

theorem ofUnix?_isSome_iff (secs : Int) (nanos : Nat) :
    (ofUnix? secs nanos).isSome ↔ -8334601228800 ≤ secs ∧ secs ≤ 8210266876799 ∧
      (nanos < 1000000000 ∨ (nanos < 2000000000 ∧ secs % 60 = 59)) := by
  rw [ofUnix?]
  split <;> simp [*]

theorem nanos_of_ofUnix? {secs : Int} {nanos : Nat} {t : Timestamp}
    (h : ofUnix? secs nanos = some t) : t.nanos = secs * secondNanos + nanos := by
  rw [ofUnix?] at h
  split at h <;> simp at h
  rw [← h]
  rfl

theorem nanos_of_ofNanos? {n : Int} {t : Timestamp} (h : ofNanos? n = some t) : t.nanos = n := by
  rw [nanos_of_ofUnix? h]
  rw [secondNanos]
  omega

/-- The instant of a number of nanoseconds never lies in a leap second. -/
theorem isLeap_of_ofNanos? {n : Int} {t : Timestamp} (h : ofNanos? n = some t) :
    t.isLeap = false := by
  rw [ofNanos?, ofUnix?] at h
  split at h <;> simp at h
  rw [← h]
  simp only [isLeap, decide_eq_false_iff_not]
  rw [secondNanos]
  omega

theorem ofNanos?_isSome_iff (n : Int) :
    (ofNanos? n).isSome ↔ -8334601228800000000000 ≤ n ∧ n ≤ 8210266876799999999999 := by
  rw [ofNanos?, ofUnix?_isSome_iff]
  rw [secondNanos]
  omega

theorem shift?_of_not_leap {t : Timestamp} (ht : t.isLeap = false) (n : Int) :
    t.shift? n = ofNanos? (t.nanos + n) := by
  simp [shift?, ht]

theorem nanos_of_add? {t u : Timestamp} {s : Span} (ht : t.isLeap = false)
    (h : t.add? s = some u) : u.nanos = t.nanos + s.nanos := by
  rw [add?, shift?_of_not_leap ht] at h
  exact nanos_of_ofNanos? h

theorem nanos_of_sub? {t u : Timestamp} {s : Span} (ht : t.isLeap = false)
    (h : t.sub? s = some u) : u.nanos = t.nanos - s.nanos := by
  rw [sub?, shift?_of_not_leap ht] at h
  rw [nanos_of_ofNanos? h]
  omega

theorem add?_isSome_iff {t : Timestamp} (ht : t.isLeap = false) (s : Span) :
    (t.add? s).isSome ↔ -8334601228800000000000 ≤ t.nanos + s.nanos ∧
      t.nanos + s.nanos ≤ 8210266876799999999999 := by
  rw [add?, shift?_of_not_leap ht, ofNanos?_isSome_iff]

theorem sub?_isSome_iff {t : Timestamp} (ht : t.isLeap = false) (s : Span) :
    (t.sub? s).isSome ↔ -8334601228800000000000 ≤ t.nanos - s.nanos ∧
      t.nanos - s.nanos ≤ 8210266876799999999999 := by
  rw [sub?, shift?_of_not_leap ht, ofNanos?_isSome_iff]
  omega

/-- Outside of leap seconds the order is that of the exact times. -/
theorem le_iff_nanos_le {a b : Timestamp} (ha : a.isLeap = false) (hb : b.isLeap = false) :
    a ≤ b ↔ a.nanos ≤ b.nanos := by
  simp only [isLeap, decide_eq_false_iff_not] at ha hb
  rw [le_def]
  simp only [nanos, secondNanos]
  omega

end Timestamp

end VaultTokens
