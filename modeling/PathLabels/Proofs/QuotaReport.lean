import PathLabels.Proofs.RateGate

/-!
# The report of an exhausted quota

A client fails for an exhausted quota on two occasions, and says each time how long it is to the reset.
When a response refuses the request, that is read off this response. When a further request is not even
sent, it is taken from the quota that is kept, and each half of that may be what an earlier response
said.

The two agree if the response gives both halves itself. Where it leaves out a half, the quota may have
one from before, but the response does not say that the quota is used up, so it is reported by its
status.
-/

namespace PathLabels

open GitHub Http

/-! ## Calls that are made once -/

namespace Exchange

variable {pr : Nat} {label : String} {e : TrackerError}

theorem fault?_list_eq_some_iff {answer : Except TrackerError (List String)} :
    (list pr answer).fault? = some e ↔ answer = .error e := by
  cases answer with
  | ok labels => simp [fault?]
  | error e' => simp [fault?]

theorem fault?_add_eq_some_iff {answer : Except TrackerError Unit} :
    (add pr label answer).fault? = some e ↔ answer = .error e := by
  cases answer with
  | ok _ => simp [fault?]
  | error e' => simp [fault?]

end Exchange

namespace Applier

/-- How often a call is made, if it is made as in applying a decision. -/
def attempts {m : Type → Type} [Monad m] (a : Applier) (tracker : Tracker m) : TrackerCall → m Nat
  | .list pr => do return (← a.withRetry tracker (tracker.list pr)).attempts
  | .add pr label => do return (← a.withRetry tracker (tracker.add pr label)).attempts

variable {σ α : Type} {tracker : Tracker (StateM σ)} {s : σ} {e : TrackerError}

theorem run_withRetry_of_error (a : Applier) {call : StateM σ (Except TrackerError α)}
    (hcall : (call.run s).1 = .error e) (he : e.isTransient = false) :
    (a.withRetry tracker call).run s = (⟨.error e, 1⟩, (call.run s).2) := by
  unfold withRetry attempt
  rw [StateM.run_bind, hcall]
  dsimp only
  rw [he]
  rfl

/-- **A call that fails for good is made once**, and what it leaves is left. -/
theorem run_attempts_of_fault (a : Applier) {call : TrackerCall}
    (hfault : ((tracker.grant (.call call)).run s).1.fault? = some e)
    (he : e.isTransient = false) :
    (a.attempts tracker call).run s = (1, ((tracker.grant (.call call)).run s).2) := by
  cases call with
  | list pr =>
    have hanswer : ((tracker.list pr).run s).1 = .error e :=
      Exchange.fault?_list_eq_some_iff.mp hfault
    unfold attempts
    rw [StateM.run_bind, run_withRetry_of_error a hanswer he]
    rfl
  | add pr label =>
    have hanswer : ((tracker.add pr label).run s).1 = .error e :=
      Exchange.fault?_add_eq_some_iff.mp hfault
    unfold attempts
    rw [StateM.run_bind, run_withRetry_of_error a hanswer he]
    rfl

end Applier

namespace GitHub

variable {r : Response} {clock : Clock}

/-- What a response of the status 403 or 429 is reported as. -/
def limitFault (r : Response) (clock : Clock) : TrackerError :=
  match exhausted? r clock with
  | some resetIn => .rateLimitExceeded resetIn
  | none => apiError r

theorem isSuccess_eq_false_of_limiting (h : r.status = 403 ∨ r.status = 429) : r.isSuccess = false := by
  unfold Response.isSuccess
  rcases h with h | h
  · rw [h]
    rfl
  · rw [h]
    rfl

/-- A response that gives both halves of the quota leaves nothing of what was kept. -/
theorem refusal?_noted {q : Quota} {n : Int} {d : Duration} (hremaining : remaining? r = some n)
    (hreset : resetIn? r clock = some d) :
    (q.noted r clock).refusal? clock = if n ≤ 0 ∧ 0 < d.nanos then some d else none := by
  have hkept : q.noted r clock = ⟨n, some (clock.uptime + d.nanos)⟩ := by
    rw [Quota.noted, hremaining, hreset]
    rfl
  have hlater : n ≤ 0 ∧ clock.uptime < clock.uptime + d.nanos ↔ n ≤ 0 ∧ 0 < d.nanos := by omega
  rw [hkept, Quota.refusal?, Option.bind_some, Nat.add_sub_cancel_left]
  exact ite_congr (propext hlater) (fun _ => rfl) (fun _ => rfl)

theorem exhausted?_eq_some_iff {d : Duration} :
    exhausted? r clock = some d ↔ remaining? r = some 0 ∧ resetIn? r clock = some d := by
  unfold exhausted?
  split
  · rename_i hzero
    rw [and_iff_right hzero]
  · rename_i hsome
    exact iff_of_false nofun fun h => hsome h.1

theorem limitFault_eq_iff {d : Duration} :
    limitFault r clock = .rateLimitExceeded d ↔ exhausted? r clock = some d := by
  unfold limitFault
  cases exhausted? r clock with
  | some d' => simp
  | none => exact iff_of_false nofun nofun

/-- Where a half is missing, the status is what is reported. -/
theorem limitFault_of_missing (h : remaining? r = none ∨ resetTime? r = none) :
    limitFault r clock = apiError r := by
  unfold limitFault
  cases hexhausted : exhausted? r clock with
  | none => rfl
  | some d =>
    obtain ⟨hremaining, hreset⟩ := exhausted?_eq_some_iff.mp hexhausted
    rcases h with h | h
    · rw [h] at hremaining
      cases hremaining
    · rw [resetIn?, h] at hreset
      cases hreset

section

variable {σ : Type} {network : Network (StateM σ)} {c : Client} (log : List Delivery) {s : σ}
  {request : Request} (hgoes : c.quota.refusal? (network.now s) = none)
  (hresponse : network.response request (network.looked s) = some r)
  (hstatus : r.status = 403 ∨ r.status = 429)
include hgoes hresponse hstatus

/-- A call that performs one request and reads the response, when the response is no success. -/
theorem joined_of_limiting {α : Type} {method : Method} {address : String}
    {body : Option Json.Value}
    {call : StateT Client (StateM (List Delivery × σ)) (Except TrackerError α)}
    {read : Response → Except TrackerError α}
    (hrequest : c.request method address body = .ok request)
    (hread : read r = .error (apiError r))
    (hcall : let ran := ((Client.perform network.recorded method address body).run c).run (log, s)
      (call.run c).run (log, s) = ((ran.1.1 >>= read, ran.1.2), ran.2)) :
    let ran := (joined call).run (c, log, s)
    let received := network.now (network.sent request (network.looked s))
    ran.1 = .error (limitFault r received) ∧ ran.2.1.quota = c.quota.noted r received := by
  have hanswer := Network.response_eq_some_iff.mp hresponse
  simp only [Client.run_perform, Network.now_recorded, Network.looked_recorded,
    Network.answer_recorded, Network.sent_recorded, hgoes, hrequest, hanswer] at hcall
  intro ran received
  have hran : ran = (((call.run c).run (log, s)).1.1, ((call.run c).run (log, s)).1.2,
      ((call.run c).run (log, s)).2) := rfl
  rw [hran, hcall]
  refine ⟨?_, rfl⟩
  have htoken : r.status ≠ 401 := by omega
  rw [Client.accept, if_neg htoken, if_pos hstatus, limitFault]
  cases exhausted? r received with
  | some resetIn => rfl
  | none => exact hread

/-- **A call whose request is refused, for the quota or for another reason,** fails with what is read
off the response, and the client keeps the quota of the response. -/
theorem grant_of_limiting {call : TrackerCall} (hrequest : c.requestOf call = .ok request) :
    let ran := ((sessionTracker network).grant (.call call)).run (c, log, s)
    let received := network.now (network.sent request (network.looked s))
    ran.1.fault? = some (limitFault r received) ∧ ran.2.1.quota = c.quota.noted r received := by
  have hfailed := isSuccess_eq_false_of_limiting hstatus
  cases call with
  | list pr =>
    have hmade : c.request .get (c.labelsUrl pr ++ "?per_page=100") none = .ok request := hrequest
    have hread : Client.listed r = .error (apiError r) := by
      rw [Client.listed, hfailed]
      rfl
    obtain ⟨hanswer, hquota⟩ := joined_of_limiting log hgoes hresponse hstatus hmade hread
      (Client.run_list network.recorded pr c (log, s))
    exact ⟨Exchange.fault?_list_eq_some_iff.mpr hanswer, hquota⟩
  | add pr label =>
    have hmade : c.request .post (c.labelsUrl pr) (some (.object [("labels", .ofStrings [label])]))
        = .ok request := hrequest
    have hread : Client.added r = .error (apiError r) := by
      rw [Client.added, hfailed]
      rfl
    obtain ⟨hanswer, hquota⟩ := joined_of_limiting log hgoes hresponse hstatus hmade hread
      (Client.run_add network.recorded pr label c (log, s))
    exact ⟨Exchange.fault?_add_eq_some_iff.mpr hanswer, hquota⟩

end

/--
**The report of an exhausted quota and the refusal after it.**

A client, whatever it has kept, is free to send the request of a call, and is answered with the status
403 or 429. `refusal` is what a further request would meet at the moment of that answer.

If the response itself says when the reset is and how many requests remain, and that number is not
negative, then the refusal is the fault of this call as well, with the same time to wait, and the call
is not made again. Conversely, a call that fails for an exhausted quota has a response that says both,
and the refusal gives the same time, unless there is none to wait. A response that leaves out one of
the two is reported by its status.
-/
theorem limit_report_agrees {σ : Type} (network : Network (StateM σ)) (c : Client)
    (log : List Delivery) (s : σ) {call : TrackerCall} {request : Request}
    (hgoes : c.quota.refusal? (network.now s) = none) (hrequest : c.requestOf call = .ok request)
    (hresponse : network.response request (network.looked s) = some r)
    (hstatus : r.status = 403 ∨ r.status = 429) :
    let tracker := sessionTracker network
    let ran := (tracker.grant (.call call)).run (c, log, s)
    let received := network.now (network.sent request (network.looked s))
    let refusal := ran.2.1.quota.refusal? received
    ((∃ n, remaining? r = some n ∧ 0 ≤ n) → (∃ time, resetTime? r = some time) →
        ∀ wait, refusal = some wait →
          ran.1.fault? = some (.rateLimitExceeded wait)
            ∧ ∀ a : Applier, (a.attempts tracker call).run (c, log, s) = (1, ran.2))
      ∧ (∀ wait, ran.1.fault? = some (.rateLimitExceeded wait) →
          (∃ n, remaining? r = some n ∧ n ≤ 0) ∧ resetIn? r received = some wait
            ∧ refusal = if 0 < wait.nanos then some wait else none)
      ∧ (remaining? r = none ∨ resetTime? r = none → ran.1.fault? = some (apiError r)) := by
  intro tracker ran received refusal
  obtain ⟨hfault, hquota⟩ := grant_of_limiting log hgoes hresponse hstatus hrequest
  have hrefusal : refusal = (c.quota.noted r received).refusal? received :=
    congrArg (Quota.refusal? · received) hquota
  refine ⟨?_, ?_, fun hmissing => ?_⟩
  · rintro ⟨n, hremaining, hn⟩ ⟨time, htime⟩ wait hwait
    obtain ⟨d, hreset⟩ : ∃ d, resetIn? r received = some d := by
      rw [resetIn?, htime]
      exact ⟨_, rfl⟩
    rw [hrefusal, refusal?_noted hremaining hreset, Option.ite_none_right_eq_some] at hwait
    obtain ⟨⟨hn', -⟩, heq⟩ := hwait
    obtain rfl : d = wait := Option.some.inj heq
    obtain rfl : n = 0 := Int.le_antisymm hn' hn
    have hlimit : limitFault r received = .rateLimitExceeded d :=
      limitFault_eq_iff.mpr (exhausted?_eq_some_iff.mpr ⟨hremaining, hreset⟩)
    have hsame : ran.1.fault? = some (.rateLimitExceeded d) := hlimit ▸ hfault
    exact ⟨hsame, fun a => a.run_attempts_of_fault hsame rfl⟩
  · intro wait hwait
    have hlimit := Option.some.inj (hfault.symm.trans hwait)
    obtain ⟨hremaining, hreset⟩ := exhausted?_eq_some_iff.mp (limitFault_eq_iff.mp hlimit)
    refine ⟨⟨0, hremaining, Int.le_refl 0⟩, hreset, ?_⟩
    rw [hrefusal, refusal?_noted hremaining hreset]
    simp
  · rw [← limitFault_of_missing hmissing]
    exact hfault

/-- The reset that the client knew of has passed, and the response gives a new one. -/
theorem limit_report_agrees_renewed :
    let c : Client :=
      { baseUrl := "http://h", token := "tok", repository := ⟨"o", "r"⟩, quota := ⟨0, some 0⟩ }
    let r : Response :=
      { status := 429, headers := [("X-RateLimit-Remaining", "0"), ("X-RateLimit-Reset", "1060")] }
    let s : NetworkScript :=
      { replies := [⟨some r, .ofSeconds 3⟩], clock := ⟨0, 1000 * Duration.perSecond⟩ }
    let tracker := sessionTracker NetworkScript.network
    let ran := (tracker.grant (.call (.add 7 "t"))).run (c, [], s)
    c.quota.refusal? s.clock = none ∧ (c.requestOf (.add 7 "t")).toOption.isSome = true
      ∧ remaining? r = some 0 ∧ resetTime? r = some 1060
      ∧ ran.2.1.quota.refusal? (s.clock.advance (.ofSeconds 3)) = some (.ofSeconds 57)
      ∧ ran.1.fault? = some (.rateLimitExceeded (.ofSeconds 57))
      ∧ ∀ a : Applier, (a.attempts tracker (.add 7 "t")).run (c, [], s) = (1, ran.2) := by
  intro c r s tracker ran
  have hgoes : c.quota.refusal? s.clock = none := by decide +kernel
  have hmade : (c.requestOf (.add 7 "t")).toOption.isSome = true := by decide +kernel
  have hremaining : remaining? r = some 0 := by decide +kernel
  have htime : resetTime? r = some 1060 := by decide +kernel
  have hrefusal : ran.2.1.quota.refusal? (s.clock.advance (.ofSeconds 3))
      = some (.ofSeconds 57) := by decide +kernel
  refine ⟨hgoes, hmade, hremaining, htime, hrefusal, ?_⟩
  cases hrequest : c.requestOf (.add 7 "t") with
  | error fault =>
    rw [hrequest] at hmade
    cases hmade
  | ok request =>
    have hresponse : NetworkScript.network.response request (NetworkScript.network.looked s)
        = some r := rfl
    obtain ⟨hagrees, _⟩ := limit_report_agrees NetworkScript.network c [] s hgoes hrequest
      hresponse (Or.inr rfl)
    exact hagrees ⟨0, hremaining, Int.le_refl 0⟩ ⟨1060, htime⟩ _ hrefusal

/-- One response says that no request remains, and a later one when the reset is. After that the
client refuses to send anything, but the response is reported by its status, and the call is made
again. -/
theorem limit_report_disagrees_halves :
    let target : Target := { token := "tok", repository := ⟨"o", "r"⟩, apiUrl := "http://h/" }
    let c : Client := { baseUrl := "http://h", token := "tok", repository := ⟨"o", "r"⟩ }
    let r : Response :=
      { status := 429, headers := [("X-RateLimit-Reset", "1060")], body := Text.bytes "slow down" }
    let s : NetworkScript :=
      { replies := [⟨some { headers := [("X-RateLimit-Remaining", "0")], body := Text.bytes "[]" },
          .zero⟩, ⟨some r, .zero⟩], clock := ⟨0, 1000 * Duration.perSecond⟩ }
    let tracker := sessionTracker NetworkScript.network
    let before := tracker.after [.call (.list 7)] (c, [], s)
    let ran := (tracker.grant (.call (.list 7))).run before
    let a : Applier := { skipIfLabeled := true }
    Client.ofTarget target = .ok c ∧ before.1.quota.refusal? before.2.2.clock = none
      ∧ ran.2.2.1.map Delivery.response = before.2.1.map Delivery.response ++ [some r]
      ∧ ran.2.1.quota.refusal? ran.2.2.2.clock = some (.ofSeconds 60)
      ∧ ran.1.fault? = some (.api 429 "slow down")
      ∧ ((a.attempts tracker (.list 7)).run before).1 = 2 := by
  decide +kernel

end GitHub

end PathLabels
