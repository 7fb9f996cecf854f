import PathLabels.Proofs.RateGate

/-!
# Resets and clocks

A response says by the wall clock when the quota is reset, and the client keeps the reset by the clock
that no one sets. Between the two lies a subtraction in words of 64 bits. The time of the reset is the
server's to choose, anywhere in 64 bits. If it lies so far back that the difference does not fit, the
difference comes out positive, and a reset that has long passed is one of a far future: the client
refuses what it should send, and the reset may be later than the clock can show.

For every other time the seconds to wait are exact, the reset can be shown, and a reset that is not in
the future keeps no request back.
-/

namespace PathLabels

open Http

namespace Http

/-- The clock can show an uptime: its whole seconds fit into 64 bits with a sign. -/
def Clock.CanShow (uptime : Nat) : Prop := uptime / Duration.perSecond < 0x8000000000000000

instance (uptime : Nat) : Decidable (Clock.CanShow uptime) :=
  inferInstanceAs (Decidable (_ < _))

/-- What clocks show: a Unix time that leaves room in 64 bits, and an uptime that is not longer. -/
structure Clock.IsSound (clock : Clock) : Prop where
  unixSeconds : clock.unixSeconds < 0x4000000000000000
  uptime : clock.uptime ≤ clock.unixTime

instance (clock : Clock) : Decidable clock.IsSound :=
  decidable_of_iff
    (clock.unixSeconds < 0x4000000000000000 ∧ clock.uptime ≤ clock.unixTime)
    ⟨fun h => ⟨h.1, h.2⟩, fun h => ⟨h.unixSeconds, h.uptime⟩⟩

/-- When something was received that announces a reset, and the time of the reset. -/
def Delivery.announced? (d : Delivery) : Option (Clock × Int) :=
  d.resetTime?.map fun time => (d.clock, time)

end Http

namespace GitHub

/-- A time does not lie so far back that its difference from the clock leaves 64 bits. -/
def InReach (time : Int) (clock : Clock) : Prop := -0x8000000000000000 ≤ time - clock.unixSeconds

instance (time : Int) (clock : Clock) : Decidable (InReach time clock) :=
  inferInstanceAs (Decidable (_ ≤ _))

/-- The uptime at which a client expects the reset. -/
def expectedReset (clock : Clock) (time : Int) : Nat :=
  clock.uptime + (Duration.ofSeconds (secondsUntil time clock.unixSeconds)).nanos

/-! ## One response -/

variable {r : Response} {clock : Clock} {time : Int} {q : Quota}

theorem neg_le_of_resetTime? (h : resetTime? r = some time) : -0x8000000000000000 ≤ time := by
  obtain ⟨text, _, hread⟩ := Option.bind_eq_some_iff.mp h
  obtain ⟨_, hbounds⟩ := Option.filter_eq_some_iff.mp hread
  simpa using (Bool.and_eq_true_iff.mp hbounds).1

/-- A difference that lies below 64 bits comes out once around higher. -/
theorem secondsUntil_of_far {now : Int} (hlow : -0x10000000000000000 ≤ time - now)
    (hhigh : time - now < -0x8000000000000000) :
    (secondsUntil time now : Int) = time - now + 0x10000000000000000 := by
  have haround : (time - now).bmod Int64.size
      = (time - now + 0x10000000000000000).bmod Int64.size :=
    (Int.add_bmod_right (time - now) Int64.size).symm
  have hdifference : (Int64.ofInt time - Int64.ofInt now).toInt
      = time - now + 0x10000000000000000 := by
    rw [← Int64.ofInt_sub, Int64.toInt_ofInt, haround, ← Int64.toInt_ofInt]
    exact Int64.toInt_ofInt_of_le (by omega) (by omega)
  rw [secondsUntil, hdifference]
  split
  · rename_i hneg
    rw [Int64.lt_iff_toInt_lt, hdifference, Int64.toInt_zero] at hneg
    omega
  · omega

theorem secondsUntil_of_inReach (htime : resetTime? r = some time) (h : InReach time clock) :
    secondsUntil time clock.unixSeconds = (time - clock.unixSeconds).toNat := by
  have hmax := le_of_resetTime? htime
  unfold InReach at h
  exact secondsUntil_eq h (by omega)

theorem secondsUntil_of_not_inReach (htime : resetTime? r = some time) (hclock : clock.IsSound)
    (h : ¬InReach time clock) :
    (secondsUntil time clock.unixSeconds : Int)
      = time - clock.unixSeconds + 0x10000000000000000 := by
  have hmin := neg_le_of_resetTime? htime
  have hnow := hclock.unixSeconds
  unfold InReach at h
  exact secondsUntil_of_far (by omega) (by omega)

/-- **The seconds to wait are exact for the times in reach**, and for no others. -/
theorem secondsUntil_eq_max_iff (htime : resetTime? r = some time) (hclock : clock.IsSound) :
    (secondsUntil time clock.unixSeconds : Int) = max 0 (time - clock.unixSeconds)
      ↔ InReach time clock := by
  constructor
  · intro hexact
    by_cases h : InReach time clock
    · exact h
    · -- the seconds would be positive, and the time has passed
      have hmin := neg_le_of_resetTime? htime
      have hnow := hclock.unixSeconds
      rw [secondsUntil_of_not_inReach htime hclock h] at hexact
      unfold InReach at h
      omega
  · intro h
    rw [secondsUntil_of_inReach htime h]
    omega

/-- A reset in reach is one that the clock can show. -/
theorem canShow_expectedReset (htime : resetTime? r = some time) (hclock : clock.IsSound)
    (h : InReach time clock) : Clock.CanShow (expectedReset clock time) := by
  have hmax := le_of_resetTime? htime
  have hstarted := hclock.uptime
  have hnow := hclock.unixSeconds
  rw [Clock.CanShow, expectedReset, secondsUntil_of_inReach htime h]
  simp only [Duration.ofSeconds, Clock.unixSeconds, Duration.perSecond] at hnow ⊢
  omega

theorem expectedReset_of_passed (htime : resetTime? r = some time) (h : InReach time clock)
    (hpassed : time ≤ clock.unixSeconds) : expectedReset clock time = clock.uptime := by
  have hzero : (time - clock.unixSeconds).toNat = 0 := by omega
  rw [expectedReset, secondsUntil_of_inReach htime h, hzero]
  simp [Duration.ofSeconds]

theorem resetAt_noted (htime : resetTime? r = some time) :
    (q.noted r clock).resetAt = some (expectedReset clock time) := by
  rw [Quota.noted, resetIn?, htime]
  rfl

/-! ## Whole sessions -/

variable {σ : Type} {network : Network (StateM σ)} {c c' : Client} {log log' : List Delivery}
  {s s' : σ}

/-- A quota keeps the reset that was announced last, by the clock of that moment. -/
def KeepsLast (q : Quota) (log : List Delivery) : Prop :=
  q.resetAt = (last? Delivery.announced? log).map fun announced =>
    expectedReset announced.1 announced.2

theorem keepsLast_start : KeepsLast {} [] := rfl

theorem keepsLast_noted {d : Delivery} (hkept : KeepsLast q log) (hr : d.response = some r) :
    KeepsLast (q.noted r d.clock) (log ++ [d]) := by
  have hsay : d.resetTime? = resetTime? r := by
    rw [Delivery.resetTime?, hr]
    rfl
  rw [KeepsLast, last?_concat, Delivery.announced?, hsay]
  cases htime : resetTime? r with
  | none =>
    rw [Quota.noted, resetIn?, htime]
    exact hkept
  | some time => exact resetAt_noted htime

theorem keepsLast_lost {d : Delivery} (hkept : KeepsLast q log) (hr : d.response = none) :
    KeepsLast q (log ++ [d]) := by
  have hsay : d.announced? = none := by
    rw [Delivery.announced?, Delivery.resetTime?, hr]
    rfl
  rw [KeepsLast, last?_concat, hsay]
  exact hkept

theorem exists_response_of_last?_announced? (h : last? Delivery.announced? log = some (clock, time)) :
    ∃ r, resetTime? r = some time := by
  obtain ⟨d, _, hd⟩ := List.mem_filterMap.mp (List.mem_of_getLast? h)
  obtain ⟨time', htime, heq⟩ := Option.map_eq_some_iff.mp hd
  obtain ⟨r, _, hr⟩ := Option.bind_eq_some_iff.mp htime
  have hsame : time' = time := congrArg Prod.snd heq
  exact ⟨r, hsame ▸ hr⟩

/-- **A reset that has passed when it is announced keeps no request back.** -/
theorem refusal?_of_passed {now : Clock} (hkept : KeepsLast q log)
    (hlast : last? Delivery.announced? log = some (clock, time)) (h : InReach time clock)
    (hpassed : time ≤ clock.unixSeconds) (hnow : clock.uptime ≤ now.uptime) :
    q.refusal? now = none := by
  obtain ⟨r, htime⟩ := exists_response_of_last?_announced? hlast
  rw [Option.eq_none_iff_forall_ne_some]
  intro wait hwait
  obtain ⟨_, reset, hreset, hlt, _⟩ := refusal?_eq_some_iff.mp hwait
  rw [hkept, hlast, Option.map_some, Option.some.injEq] at hreset
  dsimp only at hreset
  rw [expectedReset_of_passed htime h hpassed] at hreset
  omega

/--
**The arithmetic of resets.**

A response announces a reset at `time`, anywhere in 64 bits, and comes when the clock shows a Unix time
that leaves room in 64 bits and an uptime that is not longer. Whatever the client has kept before, it
now expects the reset so many seconds later as the subtraction gives. These are the seconds to `time`,
or none if it has passed, exactly if `time` does not lie so far back that the difference leaves 64 bits;
and then the clock can show the expected reset. For other times the seconds are those that the
difference makes once around.

And let a client that was made for a target be asked for anything by then, over any network. If the
last reset that was announced lay in reach and not in the future, the next request is handed over.
-/
theorem reset_arithmetic {target : Target} {c : Client} (hmade : Client.ofTarget target = .ok c)
    (network : Network (StateM σ)) (s : σ) (earlier : List Wish) (call : TrackerCall) :
    (∀ (r : Response) (clock : Clock) (time : Int), resetTime? r = some time → clock.IsSound →
        let seconds := secondsUntil time clock.unixSeconds
        let expected := clock.uptime + (Duration.ofSeconds seconds).nanos
        resetIn? r clock = some (.ofSeconds seconds)
          ∧ (∀ q : Quota, (q.noted r clock).resetAt = some expected)
          ∧ ((seconds : Int) = max 0 (time - clock.unixSeconds) ↔ InReach time clock)
          ∧ (InReach time clock → Clock.CanShow expected)
          ∧ (¬InReach time clock →
            (seconds : Int) = time - clock.unixSeconds + 0x10000000000000000))
      ∧ let before := (sessionTracker network).after earlier (c, [], s)
        let ran := ((sessionTracker network).grant (.call call)).run before
        let log := before.2.1
        ∀ clock time, last? Delivery.announced? log = some (clock, time) →
          InReach time clock → time ≤ clock.unixSeconds →
          clock.uptime ≤ (network.now before.2.2).uptime →
          HandedOver (before.1.requestOf call) ran.1 log ran.2.2.1 := by
  constructor
  · intro r clock time htime hclock seconds expected
    refine ⟨?_, fun q => resetAt_noted htime, secondsUntil_eq_max_iff htime hclock,
      canShow_expectedReset htime hclock, secondsUntil_of_not_inReach htime hclock⟩
    rw [resetIn?, htime]
    rfl
  · intro before ran log clock time hlast hreach hpassed hnow
    obtain ⟨past, hpast⟩ := (sessionTracker network).goes_after earlier (c, [], s)
    have hnext := (sessionTracker network).goes_grant (.call call) before
    have hcall := Exchange.call?_grant (sessionTracker network) call before
    have hkept : KeepsLast before.1.quota log := by
      refine keeping_of_goes keepsLast_noted keepsLast_lost hpast ?_
      rw [quota_ofTarget hmade]
      exact keepsLast_start
    obtain ⟨answer, hperformance, hfault⟩ := performance_of_goes hcall hnext
    exact (handedOver_iff hperformance hfault).mpr
      (refusal?_of_passed hkept hlast hreach hpassed hnow)

/-- A reset before 1970 is announced when no request remains, and the next request is handed over. -/
theorem reset_arithmetic_passed :
    let target : Target := { token := "tok", repository := ⟨"o", "r"⟩, apiUrl := "http://h/" }
    let c : Client := { baseUrl := "http://h", token := "tok", repository := ⟨"o", "r"⟩ }
    let r : Response :=
      { headers := [("X-RateLimit-Remaining", "0"), ("X-RateLimit-Reset", "-5")] }
    let clock : Clock := ⟨10 * Duration.perSecond, 1000 * Duration.perSecond⟩
    let s : NetworkScript := { replies := [⟨some r, .zero⟩], clock }
    let tracker := sessionTracker NetworkScript.network
    let before := tracker.after [.call (.list 7)] (c, [], s)
    let ran := (tracker.grant (.call (.add 7 "t"))).run before
    Client.ofTarget target = .ok c ∧ clock.IsSound ∧ resetTime? r = some (-5)
      ∧ InReach (-5) clock ∧ (secondsUntil (-5) clock.unixSeconds : Int)
        = max 0 (-5 - (clock.unixSeconds : Int))
      ∧ before.1.quota.remaining = 0
      ∧ HandedOver (before.1.requestOf (.add 7 "t")) ran.1 before.2.1 ran.2.2.1 := by
  intro target c r clock s tracker before ran
  have hmade : Client.ofTarget target = .ok c := by decide +kernel
  have hclock : clock.IsSound := by decide +kernel
  have htime : resetTime? r = some (-5) := by decide +kernel
  have hreach : InReach (-5) clock := by decide +kernel
  have hlast : last? Delivery.announced? before.2.1 = some (clock, -5) := by decide +kernel
  obtain ⟨hresponses, hsession⟩ :=
    reset_arithmetic hmade NetworkScript.network s [.call (.list 7)] (.add 7 "t")
  obtain ⟨-, -, hexact, -, -⟩ := hresponses r clock (-5) htime hclock
  refine ⟨hmade, hclock, htime, hreach, hexact.mpr hreach, by decide +kernel, ?_⟩
  -- written out, so that nothing has to be computed to see that this is the statement
  simp only [ran, before, tracker]
  exact hsession clock (-5) hlast hreach (by decide +kernel) (by decide +kernel)

/-- A reset so far back that the difference leaves 64 bits keeps the next request back, and another
one comes out later than the clock can show. -/
theorem reset_arithmetic_overflows :
    let target : Target := { token := "tok", repository := ⟨"o", "r"⟩, apiUrl := "http://h/" }
    let c : Client := { baseUrl := "http://h", token := "tok", repository := ⟨"o", "r"⟩ }
    let r : Response :=
      { headers := [("X-RateLimit-Remaining", "0"), ("X-RateLimit-Reset", "-9223372036854775808")],
        body := Text.bytes "[]" }
    let clock : Clock := ⟨10 * Duration.perSecond, 1000 * Duration.perSecond⟩
    let s : NetworkScript := { replies := [⟨some r, .zero⟩, ⟨some r, .zero⟩], clock }
    let tracker := sessionTracker NetworkScript.network
    let before := tracker.after [.call (.list 7)] (c, [], s)
    let ran := (tracker.grant (.call (.list 7))).run before
    Client.ofTarget target = .ok c ∧ clock.IsSound
      ∧ resetTime? r = some (-0x8000000000000000)
      ∧ (secondsUntil (-0x8000000000000000) clock.unixSeconds : Int)
        ≠ max 0 (-0x8000000000000000 - (clock.unixSeconds : Int))
      ∧ ran.1.fault? = some (.rateLimitExceeded (.ofSeconds 9223372036854774808))
      ∧ ran.2.2.1 = before.2.1
      ∧ Text.int64? "-9223372036854774809" = some (-9223372036854774809)
      ∧ ¬Clock.CanShow (expectedReset clock (-9223372036854774809)) := by
  decide +kernel

end GitHub

end PathLabels
