import Mathlib.Control.Monad.Basic
import VaultTokens.Proofs.RenewalTimeline

/-!
# No gap between leases

A token is renewed the buffer before the end of its lease, but a second after it was issued at the
soonest. What is left of the lease when its renewal begins is therefore the buffer, or all but a
second of a lease that is shorter than that (`Turn.leeway`). A renewal may fail and be repeated; if
it is done within the leeway, the next token is there before the last one expires, and the same is
true of that one.

The leases of a run are read off the logins that have ended. `IsLatest` names the last token that
was issued by a moment. `Prompt` asks of a run what the policy cannot grant, since it depends on the
server: that no lease is shorter than a second and that each token whose renewal has begun is
replaced within the leeway, unless the run ends before that.

## Main results

* `Turn.renewalWait_add_leeway_le` — a renewal that begins leaves the leeway
* `OnTime.begins_after_lease` — a renewal begins within its lease
* `Prompt.le_expiry` — the last token that was issued has not expired
* `leases_cover` — both, at every moment of every run of one worker
-/

namespace VaultTokens.Renewal

namespace Turn

variable {p : RenewalPolicy} {lease : UInt64}

/-- How long a renewal may take before the token expires: the buffer, or all but a second of a lease
that is shorter than that. -/
def leeway (p : RenewalPolicy) (lease : UInt64) : Nat :=
  min p.buffer.toNat (lease.toNat - 1) * nanosPerSecond

/-- **A renewal that begins leaves the leeway** of a lease of one second or more. -/
theorem renewalWait_add_leeway_le (p : RenewalPolicy) (hlease : 1 ≤ lease.toNat) :
    renewalWait p lease + leeway p lease ≤ lease.toNat * nanosPerSecond := by
  simp only [renewalWait, leeway, nanosPerSecond]
  omega

theorem renewalWait_le (p : RenewalPolicy) (hlease : 1 ≤ lease.toNat) :
    renewalWait p lease ≤ lease.toNat * nanosPerSecond :=
  Nat.le_trans (Nat.le_add_right ..) (renewalWait_add_leeway_le p hlease)

end Turn

namespace Simulation

variable {s : Simulation} {past : List Notice} {p : RenewalPolicy} {attempts : Nat → Attempt}
  {first : Turn} {begun : List Nat} {ended : List (Nat × Except Failure (Option UInt64))}
  {i now obtained t : Nat} {lease : UInt64}

/-! ### When a renewal begins -/

/-- **A renewal begins when its wait is over**, if the run goes on until then. -/
theorem OnTime.begins_after_lease {reports : Bool} (h : OnTime p reports attempts first s past)
    (hsettled : Settled s) (hi : (endings past)[i]? = some (obtained, .ok (some lease))) :
    (begins past)[i + 1]? = if obtained + Turn.renewalWait p lease ≤ s.now
      then some (obtained + Turn.renewalWait p lease) else none := by
  obtain ⟨turn, hturn, hc⟩ := Option.bind_eq_some_iff.mp (h.ended i _ hi).1
  have hnext : Turn.timeline p attempts first (i + 1)
      = some ⟨obtained + Turn.renewalWait p lease, 0⟩ := by
    rw [Turn.timeline, hturn, Option.bind_some, Turn.follow, hc]
  rw [h.begins_eq hsettled, Turn.moments, hnext, Option.map_some, Option.filter_some]
  simp only [decide_eq_true_eq]

/-- So does the first login of a worker that is started for a token. -/
theorem OnTime.begins_from_lease {reports : Bool}
    (h : OnTime p reports attempts ⟨obtained + Turn.renewalWait p lease, 0⟩ s past)
    (hsettled : Settled s) :
    (begins past)[0]? = if obtained + Turn.renewalWait p lease ≤ s.now
      then some (obtained + Turn.renewalWait p lease) else none := by
  rw [h.begins_eq hsettled, Turn.moments, Turn.timeline, Option.map_some, Option.filter_some]
  simp only [decide_eq_true_eq]

/-! ### Leases of a run -/

/-- The last token that was issued by a moment is that of one login, which ended with that lease. -/
structure IsLatest (ended : List (Nat × Except Failure (Option UInt64))) (t i obtained : Nat)
    (lease : Option UInt64) : Prop where
  /-- The login has succeeded. -/
  issued : ended[i]? = some (obtained, .ok lease)
  /-- It had by then. -/
  inTime : obtained ≤ t
  /-- No later login had. -/
  last : ∀ (j c : Nat) (lease' : Option UInt64), i < j → ended[j]? = some (c, .ok lease') → t < c

/-- There is a last one of some numbers below a bound. -/
theorem exists_last {P : Nat → Prop} {n i : Nat} (hlt : ∀ j, P j → j < n) (hi : P i) :
    ∃ k, P k ∧ ∀ j, k < j → ¬ P j := by
  by_cases hmore : ∃ j, i < j ∧ P j
  · obtain ⟨j, hij, hj⟩ := hmore
    exact exists_last hlt hj
  · exact ⟨i, hi, fun j hij hj => hmore ⟨j, hij, hj⟩⟩
termination_by n - i
decreasing_by
  have hj' := hlt j hj
  omega

/-- From the first success on there is always a last token. -/
theorem exists_isLatest {outcome : Option UInt64}
    (hi : ended[i]? = some (obtained, .ok outcome)) (hle : obtained ≤ t) :
    ∃ j c lease, IsLatest ended t j c lease := by
  obtain ⟨j, ⟨c, lease, hj, hc⟩, hlast⟩ := exists_last
    (P := fun j => ∃ c lease, ended[j]? = some (c, .ok lease) ∧ c ≤ t) (n := ended.length)
    (fun j ⟨c, lease, hj, _⟩ => (List.getElem?_eq_some_iff.mp hj).1) ⟨obtained, outcome, hi, hle⟩
  refine ⟨j, c, lease, hj, hc, fun k c' lease' hjk hk => Nat.lt_of_not_le fun hle' => ?_⟩
  exact hlast k hjk ⟨c', lease', hk, hle'⟩

/-- No lease is shorter than a second, and each token whose renewal has begun is replaced within the
leeway, if the run goes on for longer than that. -/
structure Prompt (p : RenewalPolicy) (now : Nat) (begun : List Nat)
    (ended : List (Nat × Except Failure (Option UInt64))) : Prop where
  /-- A lease is a second long at least. -/
  lasting : ∀ (i obtained : Nat) (lease : UInt64),
    ended[i]? = some (obtained, .ok (some lease)) → 1 ≤ lease.toNat
  /-- A renewal that begins succeeds within the leeway. -/
  renewed : ∀ (i obtained : Nat) (lease : UInt64) (moment : Nat),
    ended[i]? = some (obtained, .ok (some lease)) →
    begun[i + 1]? = some moment → moment + Turn.leeway p lease < now →
    ∃ j c lease', i < j ∧ ended[j]? = some (c, .ok lease') ∧ c ≤ moment + Turn.leeway p lease

/-- **The last token that was issued has not expired**, at any moment of a prompt run. -/
theorem Prompt.le_expiry (h : Prompt p now begun ended)
    (hbegins : ∀ (i obtained : Nat) (lease : UInt64),
      ended[i]? = some (obtained, .ok (some lease)) →
      begun[i + 1]? = if obtained + Turn.renewalWait p lease ≤ now
        then some (obtained + Turn.renewalWait p lease) else none)
    (ht : t ≤ now) (hlatest : IsLatest ended t i obtained (some lease)) :
    t ≤ obtained + lease.toNat * nanosPerSecond := by
  refine Nat.le_of_not_lt fun hexpired => ?_
  have hlease := h.lasting i obtained lease hlatest.issued
  have hleeway := Turn.renewalWait_add_leeway_le p hlease
  -- the renewal has begun, and the time that it may take is over
  have hbegun := hbegins i obtained lease hlatest.issued
  rw [if_pos (by omega)] at hbegun
  obtain ⟨j, c, lease', hij, hj, hc⟩ :=
    h.renewed i obtained lease _ hlatest.issued hbegun (by omega)
  have hlater := hlatest.last j c lease' hij hj
  omega

/-- **There is no gap between leases.** However a run came to where a scheduler is there and does
not run, from a start on and as long as the worker is left to itself: if no lease is shorter than a
second and every renewal succeeds within the leeway, then at every moment after the first success
there is a last token, and it has not expired. And whatever the server does, the first login after a
lease of a second or more begins a second after the token was issued at the soonest and when the
lease ends at the latest, be it a lease of this worker or the one it was started for. -/
theorem leases_cover {policy : RenewalPolicy} {reports : Bool} {script : List Attempt}
    {afterwards : Attempt} {before : List Step}
    (hrun : (initial policy reports script afterwards).run before = (s, past))
    {x : Step} {rest : List Step} (hidle : s.isRunning = some false) (hstart : x.isStart = true)
    (hrest : (s.step x).1.undisturbed rest = true) :
    let later := s.run (x :: rest)
    let now := later.1.now
    let begun := begins later.2
    let ended := endings later.2
    (Prompt policy now begun ended → ∀ t ≤ now, ∀ (i obtained : Nat) (lease : Option UInt64),
        ended[i]? = some (obtained, .ok lease) → obtained ≤ t →
        (∃ j c lease', IsLatest ended t j c lease') ∧
          ∀ j c lease', IsLatest ended t j c (some lease') →
            t ≤ c + lease'.toNat * nanosPerSecond) ∧
      (∀ (i obtained : Nat) (lease : UInt64),
        ended[i]? = some (obtained, .ok (some lease)) → 1 ≤ lease.toNat →
        ∃ moment, obtained + nanosPerSecond ≤ moment ∧
          moment ≤ obtained + lease.toNat * nanosPerSecond ∧
          begun[i + 1]? = if moment ≤ now then some moment else none) ∧
      (∀ lease, x = .startFrom (some lease) → 1 ≤ lease.toNat →
        ∃ moment, s.now + nanosPerSecond ≤ moment ∧
          moment ≤ s.now + lease.toNat * nanosPerSecond ∧
          begun[0]? = if moment ≤ now then some moment else none) := by
  intro later now begun ended
  obtain ⟨hlater, hsettled⟩ := onTime_run hrun hidle hstart hrest
  have hbegins := fun (i obtained : Nat) (lease : UInt64)
    (hi : ended[i]? = some (obtained, .ok (some lease))) => hlater.begins_after_lease hsettled hi
  refine ⟨fun hprompt t ht i obtained lease hi hle => ⟨exists_isLatest hi hle, ?_⟩, ?_, ?_⟩
  · intro j c lease' hlatest
    exact hprompt.le_expiry hbegins ht hlatest
  · intro i obtained lease hi hlease
    exact ⟨_, Nat.add_le_add_left (Turn.second_le_renewalWait policy lease) obtained,
      Nat.add_le_add_left (Turn.renewalWait_le policy hlease) obtained, hbegins i obtained lease hi⟩
  · rintro lease rfl hlease
    exact ⟨_, Nat.add_le_add_left (Turn.second_le_renewalWait policy lease) s.now,
      Nat.add_le_add_left (Turn.renewalWait_le policy hlease) s.now,
      hlater.begins_from_lease hsettled⟩

/-- The logins of a server that is away for a moment when its first token is renewed. -/
def awayOnce : Simulation × List Notice :=
  (initial { RenewalPolicy.usual with maxRetries := 1 } true
    [⟨0, some (.ok (some 60))⟩, ⟨0, some (.error ⟨.network, "gone"⟩)⟩]
    ⟨2 * nanosPerSecond, some (.ok none)⟩).run []

/-- The second token is there seven seconds after its renewal began, and until then the first one
has not expired. -/
theorem leases_cover_awayOnce :
    IsLatest (endings (awayOnce.1.run [.start, .sleep (90 * nanosPerSecond)]).2)
        (36 * nanosPerSecond) 0 0 (some 60) ∧
      36 * nanosPerSecond ≤ 0 + (60 : UInt64).toNat * nanosPerSecond := by
  have hidle : awayOnce.1.isRunning = some false := by decide +kernel
  have hrest : (awayOnce.1.step .start).1.undisturbed [.sleep (90 * nanosPerSecond)] = true := by
    decide +kernel
  have hbegins : begins (awayOnce.1.run [.start, .sleep (90 * nanosPerSecond)]).2
      = [0, 30 * nanosPerSecond, 35 * nanosPerSecond] := by
    decide +kernel
  have hendings : endings (awayOnce.1.run [.start, .sleep (90 * nanosPerSecond)]).2
      = [(0, .ok (some 60)), (30 * nanosPerSecond, .error ⟨.network, "gone"⟩),
        (37 * nanosPerSecond, .ok none)] := by
    decide +kernel
  have hnow : (awayOnce.1.run [.start, .sleep (90 * nanosPerSecond)]).1.now
      = 90 * nanosPerSecond := by
    decide +kernel
  have h := leases_cover (x := .start) (show _ = (awayOnce.1, awayOnce.2) from rfl) hidle rfl hrest
  simp only [hbegins, hendings, hnow] at h ⊢
  have hlatest : IsLatest [(0, .ok (some 60)), (30 * nanosPerSecond, .error ⟨.network, "gone"⟩),
      (37 * nanosPerSecond, .ok none)] (36 * nanosPerSecond) 0 0 (some 60) := by
    refine ⟨rfl, by decide, ?_⟩
    rintro (_ | _ | _ | j) c lease' hj hat
    · cases hj
    · cases hat
    · cases hat
      decide
    · cases hat
  refine ⟨hlatest, (h.1 ⟨?_, ?_⟩ _ (by decide) 0 0 (some 60) rfl (by decide)).2 0 0 60 hlatest⟩
  · rintro (_ | _ | _ | i) obtained lease hi <;> cases hi
    decide
  · rintro (_ | _ | _ | i) obtained lease moment hi hmoment hover <;> cases hi
    cases hmoment
    exact ⟨2, _, _, by decide, rfl, by decide⟩

end Simulation

end VaultTokens.Renewal
