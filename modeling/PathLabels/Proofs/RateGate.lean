import PathLabels.Proofs.Deliveries

/-!
# The rate limit as a gate

Whether a client sends a request or has to wait depends on its quota. The quota has two halves, how
many requests remain and when the reset is, and each half is what the last response said that said
anything about it. So the halves of one quota may come from different responses, and either may be
stale. `Books` is the invariant that gives a quota in terms of what has been received; with it the gate
is described by the responses alone.
-/

namespace PathLabels

open Http

namespace GitHub

/-! ## What responses say -/

/-- Within 64 bits, the seconds to a later time are those between the two times. -/
theorem secondsUntil_eq {time now : Int} (hlow : -0x8000000000000000 ≤ time - now)
    (hhigh : time - now < 0x8000000000000000) : secondsUntil time now = (time - now).toNat := by
  have hdifference : (Int64.ofInt time - Int64.ofInt now).toInt = time - now := by
    rw [← Int64.ofInt_sub]
    exact Int64.toInt_ofInt_of_le hlow hhigh
  rw [secondsUntil, hdifference]
  split
  · rename_i hneg
    rw [Int64.lt_iff_toInt_lt, hdifference, Int64.toInt_zero] at hneg
    omega
  · rfl

theorem le_of_resetTime? {r : Response} {time : Int} (h : resetTime? r = some time) :
    time ≤ 0x7FFFFFFFFFFFFFFF := by
  obtain ⟨text, _, hread⟩ := Option.bind_eq_some_iff.mp h
  obtain ⟨_, hbounds⟩ := Option.filter_eq_some_iff.mp hread
  simpa using (Bool.and_eq_true_iff.mp hbounds).2

end GitHub

namespace Http.Delivery

open GitHub

/-- How many requests remain, by what was received. -/
def remaining? (d : Delivery) : Option Int := d.response.bind GitHub.remaining?

/-- The Unix time of the reset, by what was received. -/
def resetTime? (d : Delivery) : Option Int := d.response.bind GitHub.resetTime?

/-- The uptime of the reset: when the response was received, and the whole seconds from then to the
reset by the wall clock, if there are any. -/
def resetInstant? (d : Delivery) : Option Nat :=
  d.resetTime?.map fun time : Int =>
    d.clock.uptime + (time - d.clock.unixSeconds).toNat * Duration.perSecond

/-- The wall clock and the time of the reset are not before 1970, and the clock fits in 64 bits. -/
structure IsTimely (d : Delivery) : Prop where
  clock : d.clock.unixSeconds < 0x8000000000000000
  reset : ∀ time ∈ d.resetTime?, 0 ≤ time

instance (d : Delivery) : Decidable d.IsTimely :=
  decidable_of_iff (d.clock.unixSeconds < 0x8000000000000000 ∧ ∀ time ∈ d.resetTime?, 0 ≤ time)
    ⟨fun h => ⟨h.1, h.2⟩, fun h => ⟨h.clock, h.reset⟩⟩

end Http.Delivery

namespace GitHub

/-- The last value that what was received says. -/
def last? {α : Type} (say : Delivery → Option α) (log : List Delivery) : Option α :=
  (log.filterMap say).getLast?

theorem last?_concat {α : Type} (say : Delivery → Option α) (log : List Delivery) (d : Delivery) :
    last? say (log ++ [d]) = (say d).or (last? say log) := by
  rw [last?, last?, List.filterMap_append, List.getLast?_append]
  cases hsay : say d with
  | none => rw [List.filterMap_cons_none hsay]; rfl
  | some value => rw [List.filterMap_cons_some hsay]; rfl

/-- What was received so far forbids a request at the time `now`, until the uptime `reset`. -/
def Forbids (log : List Delivery) (now : Clock) (reset : Nat) : Prop :=
  (∃ n, last? Delivery.remaining? log = some n ∧ n ≤ 0)
    ∧ last? Delivery.resetInstant? log = some reset ∧ now.uptime < reset

/-! ## The quota and what was received -/

/-- A quota is what the last responses said, each half by itself. -/
structure Books (q : Quota) (log : List Delivery) : Prop where
  remaining : q.remaining = (last? Delivery.remaining? log).getD 5000
  resetAt : (∀ d ∈ log, d.IsTimely) → q.resetAt = last? Delivery.resetInstant? log

theorem books_start : Books {} [] := ⟨rfl, fun _ => rfl⟩

/-- **A response is entered in the books**, whatever it says. -/
theorem books_noted {q : Quota} {log : List Delivery} {d : Delivery} {r : Response}
    (hb : Books q log) (hr : d.response = some r) : Books (q.noted r d.clock) (log ++ [d]) where
  remaining := by
    have hsay : d.remaining? = GitHub.remaining? r := by rw [Delivery.remaining?, hr]; rfl
    rw [last?_concat, hsay, Quota.noted]
    dsimp only
    rw [hb.remaining]
    cases GitHub.remaining? r <;> rfl
  resetAt htimely := by
    have hlog : q.resetAt = last? Delivery.resetInstant? log :=
      hb.resetAt fun d' hd' => htimely d' (List.mem_append_left _ hd')
    have hd : d.IsTimely := htimely d (List.mem_append_right _ List.mem_cons_self)
    have hsay : d.resetTime? = GitHub.resetTime? r := by rw [Delivery.resetTime?, hr]; rfl
    rw [last?_concat, Quota.noted]
    dsimp only
    rw [hlog, Delivery.resetInstant?, resetIn?, hsay]
    cases htime : GitHub.resetTime? r with
    | none => rfl
    | some time =>
      have hpos : 0 ≤ time := hd.reset time (hsay.trans htime)
      have hmax : time ≤ 0x7FFFFFFFFFFFFFFF := le_of_resetTime? htime
      have hclock := hd.clock
      -- neither of the two times is so far from the other that the difference leaves 64 bits
      have hseconds : secondsUntil time d.clock.unixSeconds
          = (time - d.clock.unixSeconds).toNat := secondsUntil_eq (by omega) (by omega)
      rw [Option.map_some, hseconds]
      rfl

theorem books_lost {q : Quota} {log : List Delivery} {d : Delivery} (hb : Books q log)
    (hr : d.response = none) : Books q (log ++ [d]) where
  remaining := by
    have hsay : d.remaining? = none := by rw [Delivery.remaining?, hr]; rfl
    rw [last?_concat, hsay, hb.remaining]
    rfl
  resetAt htimely := by
    have hsay : d.resetInstant? = none := by
      rw [Delivery.resetInstant?, Delivery.resetTime?, hr]
      rfl
    rw [last?_concat, hsay, hb.resetAt fun d' hd' => htimely d' (List.mem_append_left _ hd')]
    rfl

variable {σ : Type} {network : Network (StateM σ)} {c c' : Client} {log log' : List Delivery}
  {s s' : σ}

/-- What a quota keeps to, whatever is received and entered. -/
def keeping (σ : Type) (P : Quota → List Delivery → Prop) :
    Evolution (Client × List Delivery × σ) where
  Allows w w' := P w.1.quota w.2.1 → P w'.1.quota w'.2.1
  refl _ hp := hp
  trans h h' hp := h' (h hp)

section

variable {P : Quota → List Delivery → Prop}
  (hnoted : ∀ {q log d r}, P q log → d.response = some r → P (q.noted r d.clock) (log ++ [d]))
  (hlost : ∀ {q log d}, P q log → d.response = none → P q (log ++ [d]))
include hnoted hlost

/-- **What every response keeps is kept by every request.** -/
theorem keeping_performance {request : Except HttpFault Request}
    {answer : Except TrackerError Response}
    (h : Performance network request c log s answer c' log' s') (hp : P c.quota log) :
    P c'.quota log' := by
  cases h with
  | blocked _ => exact hp
  | unmade _ _ => exact hp
  | @lost r fault _ _ hanswer =>
    have hnone : (network.delivery r (network.looked s)).response = none :=
      Network.response_eq_none_iff.mpr ⟨fault, hanswer⟩
    exact hlost hp hnone
  | @answered r response received _ _ hanswer hreceived =>
    subst hreceived
    have hheard : (network.delivery r (network.looked s)).response = some response :=
      Network.response_eq_some_iff.mpr hanswer
    have hkept := hnoted hp hheard
    rw [Network.clock_delivery] at hkept
    exact hkept

theorem keeping_of_goes {t : Transcript}
    (hgoes : (sessionTracker network).Goes (c, log, s) t (c', log', s')) (hp : P c.quota log) :
    P c'.quota log' := by
  have hkeeps : (keeping σ P).Allows (c, log, s) (c', log', s') := by
    refine allows_of_goes (keeping σ P) ?_ ?_ hgoes
    · intro _ _ _ _ _ _ _ _ hperformance
      exact keeping_performance hnoted hlost hperformance
    · intro _ c log s hp
      exact hp
  exact hkeeps hp

end

theorem books_of_goes {t : Transcript}
    (hgoes : (sessionTracker network).Goes (c, log, s) t (c', log', s'))
    (hb : Books c.quota log) : Books c'.quota log' :=
  keeping_of_goes books_noted books_lost hgoes hb

/-! ## The gate -/

theorem refusal?_eq_some_iff {q : Quota} {now : Clock} {d : Duration} :
    q.refusal? now = some d
      ↔ q.remaining ≤ 0 ∧ ∃ reset, q.resetAt = some reset ∧ now.uptime < reset
          ∧ d = ⟨reset - now.uptime⟩ := by
  rw [Quota.refusal?, Option.bind_eq_some_iff]
  constructor
  · rintro ⟨reset, hreset, h⟩
    split at h
    · rename_i hwait
      exact ⟨hwait.1, reset, hreset, hwait.2, (Option.some.inj h).symm⟩
    · cases h
  · rintro ⟨hremaining, reset, hreset, hlt, rfl⟩
    exact ⟨reset, hreset, if_pos ⟨hremaining, hlt⟩⟩

/-- With the books right, a client has to wait exactly if what was received says so. -/
theorem forbids_iff {q : Quota} {now : Clock} {reset : Nat} (hb : Books q log)
    (htimely : ∀ d ∈ log, d.IsTimely) :
    Forbids log now reset ↔ q.remaining ≤ 0 ∧ q.resetAt = some reset ∧ now.uptime < reset := by
  rw [Forbids, ← hb.resetAt htimely, hb.remaining]
  cases last? Delivery.remaining? log with
  | none =>
    -- nothing has been said about the requests that remain, and 5000 do
    constructor
    · rintro ⟨⟨_, h, _⟩, _⟩
      cases h
    · rintro ⟨h, _⟩
      exact absurd h (by decide)
  | some n =>
    refine and_congr_left fun _ => ?_
    constructor
    · rintro ⟨m, h, hm⟩
      exact Option.some.inj h ▸ hm
    · exact fun h => ⟨n, rfl, h⟩

theorem refusal?_eq_none_iff {q : Quota} {now : Clock} (hb : Books q log)
    (htimely : ∀ d ∈ log, d.IsTimely) :
    q.refusal? now = none ↔ ¬∃ reset, Forbids log now reset := by
  rw [Option.eq_none_iff_forall_ne_some]
  constructor
  · rintro h ⟨reset, hforbids⟩
    obtain ⟨hremaining, hreset, hlt⟩ := (forbids_iff hb htimely).mp hforbids
    exact h _ (refusal?_eq_some_iff.mpr ⟨hremaining, reset, hreset, hlt, rfl⟩)
  · intro h d hrefusal
    obtain ⟨hremaining, reset, hreset, hlt, _⟩ := refusal?_eq_some_iff.mp hrefusal
    exact h ⟨reset, (forbids_iff hb htimely).mpr ⟨hremaining, hreset, hlt⟩⟩

theorem quota_ofTarget {target : Target} (h : Client.ofTarget target = .ok c) : c.quota = {} := by
  rw [Client.ofTarget] at h
  split at h
  · cases h
  · rw [← Except.ok.inj h]

/-- A request has been handed over: it has been sent, or the answer is that there is no such
request. -/
def HandedOver (request : Except HttpFault Request) (exchange : Exchange)
    (log log' : List Delivery) : Prop :=
  (∃ d, request = .ok d.request ∧ log' = log ++ [d])
    ∨ ∃ fault, request = .error fault ∧ exchange.fault? = some (.http fault) ∧ log' = log

section

variable {request : Except HttpFault Request} {answer : Except TrackerError Response}
  {exchange : Exchange} (h : Performance network request c log s answer c' log' s')
include h

theorem handedOver_iff (hfault : ∀ e, answer = .error e → exchange.fault? = some e) :
    HandedOver request exchange log log' ↔ c.quota.refusal? (network.now s) = none := by
  cases h with
  | blocked hrefusal =>
    rw [hrefusal]
    refine ⟨fun hover => ?_, fun h => by cases h⟩
    rcases hover with ⟨d, _, hlog⟩ | ⟨fault, _, hhttp, _⟩
    · simp at hlog
    · rw [hfault _ rfl] at hhttp
      cases hhttp
  | unmade hrefusal hrequest => exact ⟨fun _ => hrefusal, fun _ => Or.inr ⟨_, hrequest, hfault _ rfl, rfl⟩⟩
  | lost hrefusal hrequest _ => exact ⟨fun _ => hrefusal, fun _ => Or.inl ⟨_, hrequest, rfl⟩⟩
  | answered hrefusal hrequest _ _ =>
    exact ⟨fun _ => hrefusal, fun _ => Or.inl ⟨_, hrequest, rfl⟩⟩

theorem blocked_of_refusal? {resetIn : Duration}
    (hrefusal : c.quota.refusal? (network.now s) = some resetIn) :
    answer = .error (.rateLimitExceeded resetIn) ∧ log' = log ∧ c' = c := by
  cases h with
  | blocked hrefusal' =>
    rw [Option.some.inj (hrefusal.symm.trans hrefusal')]
    exact ⟨rfl, rfl, rfl⟩
  | unmade hnone _ => rw [hnone] at hrefusal; cases hrefusal
  | lost hnone _ _ => rw [hnone] at hrefusal; cases hrefusal
  | answered hnone _ _ _ => rw [hnone] at hrefusal; cases hrefusal

/-- Without a response nothing is learned. -/
theorem eq_of_unanswered (hunanswered : ∀ d, log' = log ++ [d] → d.response = none) : c' = c := by
  cases h with
  | blocked _ => rfl
  | unmade _ _ => rfl
  | lost _ _ _ => rfl
  | @answered r response received _ _ hanswer _ =>
    have hnone : network.response r (network.looked s) = none := hunanswered _ rfl
    rw [Network.response_eq_some_iff.mpr hanswer] at hnone
    cases hnone

end

/--
**The gate of a client.**

A client that was made for a target is asked for calls and pauses, any of them in any order, while its
network answers in any way whatever. `log` is what it has sent and received by then. Now it makes one
more call, at the time `now` that the network shows.

The request of the call is handed over exactly if what was received does not forbid it: to be
forbidden, the last number of remaining requests was not positive, and the last announced reset lies
in the future. If it is forbidden, the call fails with the time that is left to the reset, nothing is
sent, and the client stays as it is. So it does if the request has no response. And from the reset on
requests are handed over again.
-/
theorem requests_pass_gate {target : Target} {c : Client} (hmade : Client.ofTarget target = .ok c)
    (network : Network (StateM σ)) (s : σ) (earlier : List Wish) (call : TrackerCall) :
    let before := (sessionTracker network).after earlier (c, [], s)
    let ran := ((sessionTracker network).grant (.call call)).run before
    let client := before.1
    let log := before.2.1
    let now := network.now before.2.2
    let client' := ran.2.1
    let log' := ran.2.2.1
    (∀ d ∈ log, d.IsTimely) →
    (HandedOver (client.requestOf call) ran.1 log log' ↔ ¬∃ reset, Forbids log now reset)
      ∧ (∀ reset, Forbids log now reset →
          ran.1.fault? = some (.rateLimitExceeded ⟨reset - now.uptime⟩)
            ∧ log' = log ∧ client' = client)
      ∧ ((∀ d, log' = log ++ [d] → d.response = none) → client' = client)
      ∧ (∀ reset, last? Delivery.resetInstant? log = some reset → reset ≤ now.uptime →
          HandedOver (client.requestOf call) ran.1 log log') := by
  intro before
  obtain ⟨past, hpast⟩ := (sessionTracker network).goes_after earlier (c, [], s)
  have hnext := (sessionTracker network).goes_grant (.call call) before
  have hcall := Exchange.call?_grant (sessionTracker network) call before
  intro ran client log now client' log' htimely
  have hb : Books client.quota log := by
    refine books_of_goes hpast ?_
    rw [quota_ofTarget hmade]
    exact books_start
  obtain ⟨answer, hperformance, hfault⟩ := performance_of_goes hcall hnext
  have hgate : HandedOver (client.requestOf call) ran.1 log log'
      ↔ ¬∃ reset, Forbids log now reset :=
    (handedOver_iff hperformance hfault).trans (refusal?_eq_none_iff hb htimely)
  refine ⟨hgate, fun reset hforbids => ?_, eq_of_unanswered hperformance,
    fun reset hreset hpassed => ?_⟩
  · obtain ⟨hremaining, hreset, hlt⟩ := (forbids_iff hb htimely).mp hforbids
    obtain ⟨hanswer, hlog, hc⟩ := blocked_of_refusal? hperformance
      (refusal?_eq_some_iff.mpr ⟨hremaining, reset, hreset, hlt, rfl⟩)
    exact ⟨hfault _ hanswer, hlog, hc⟩
  · refine hgate.mpr ?_
    rintro ⟨reset', _, hreset', hlt⟩
    -- there is one last reset, and it has passed
    have hsame : reset = reset' := Option.some.inj (hreset.symm.trans hreset')
    omega

/-- One response says when the reset is, a minute later, and the next one that no request remains.
Together they forbid the third request, until the minute is over. -/
theorem requests_pass_gate_staleHalves :
    let target : Target := { token := "tok", repository := ⟨"o", "r"⟩, apiUrl := "http://h/" }
    let c : Client := { baseUrl := "http://h", token := "tok", repository := ⟨"o", "r"⟩ }
    let responses : List Response :=
      [{ headers := [("X-RateLimit-Reset", "1060")], body := Text.bytes "[]" },
        { status := 422, headers := [("X-RateLimit-Remaining", "0")] }]
    let s : NetworkScript :=
      { replies := responses.map fun r => ⟨some r, .zero⟩, clock := ⟨0, 1000 * Duration.perSecond⟩ }
    let tracker := sessionTracker NetworkScript.network
    let wishes := [.call (.list 7), .call (.add 7 "t")]
    let before := tracker.after wishes (c, [], s)
    let third := (tracker.grant (.call (.add 7 "u"))).run before
    let before' := tracker.after (wishes ++ [.pause (.ofSeconds 60)]) (c, [], s)
    let fourth := (tracker.grant (.call (.add 7 "u"))).run before'
    Client.ofTarget target = .ok c
      ∧ Forbids before.2.1 (NetworkScript.network.now before.2.2) (60 * Duration.perSecond)
      ∧ third.1.fault? = some (.rateLimitExceeded (.ofSeconds 60)) ∧ third.2.2.1 = before.2.1
      ∧ HandedOver (before'.1.requestOf (.add 7 "u")) fourth.1 before'.2.1 fourth.2.2.1 := by
  intro target c responses s tracker wishes before third before' fourth
  have hmade : Client.ofTarget target = .ok c := by decide +kernel
  have hforbids : Forbids before.2.1 (NetworkScript.network.now before.2.2)
      (60 * Duration.perSecond) := ⟨⟨0, by decide +kernel, by decide⟩, by decide +kernel⟩
  obtain ⟨_, hblocked, _⟩ := requests_pass_gate hmade NetworkScript.network s wishes (.add 7 "u")
    (by decide +kernel)
  obtain ⟨_, _, _, hopen⟩ := requests_pass_gate hmade NetworkScript.network s
    (wishes ++ [.pause (.ofSeconds 60)]) (.add 7 "u") (by decide +kernel)
  obtain ⟨hfault, hlog, _⟩ := hblocked _ hforbids
  have hwait : 60 * Duration.perSecond - (NetworkScript.network.now before.2.2).uptime
      = 60 * Duration.perSecond := by decide +kernel
  rw [hwait] at hfault
  refine ⟨hmade, hforbids, hfault, by rw [← hlog], ?_⟩
  -- written out, so that nothing has to be computed to see that this is the statement
  simp only [fourth, before', tracker]
  exact hopen (60 * Duration.perSecond) (by decide +kernel) (by decide +kernel)

end GitHub

end PathLabels
