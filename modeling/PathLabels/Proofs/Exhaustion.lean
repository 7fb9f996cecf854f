import PathLabels.Proofs.Additive
import PathLabels.Proofs.RateGate
import PathLabels.Proofs.Skip
import PathLabels.Proofs.Turns

/-!
# A quota that is used up during a run

A client without requests left refuses a call before anything is sent, and goes on refusing until the
reset. The refusal is not transient. So if the reset does not come before the end of the run, the run
goes through its remaining labels without a request and without a pause. None of them is lost: those
in the view are found there, and the others fail with the refusal.
-/

namespace PathLabels

open GitHub Http

/-! ## Time passes -/

/-- The uptime that a network shows does not go back, whatever is done. -/
structure Http.Network.KeepsTime {σ : Type} (network : Network (StateM σ)) : Prop where
  looked : ∀ s, (network.now s).uptime ≤ (network.now (network.looked s)).uptime
  sent : ∀ request s, (network.now s).uptime ≤ (network.now (network.sent request s)).uptime
  waited : ∀ d s, (network.now s).uptime ≤ (network.now (network.waited d s)).uptime

theorem Http.NetworkScript.keepsTime : NetworkScript.network.KeepsTime where
  looked _ := Nat.le_refl _
  sent request s := by
    show s.clock.uptime ≤ (s.send request).2.clock.uptime
    rw [NetworkScript.send]
    split
    · exact Nat.le_add_right _ _
    · exact Nat.le_refl _
  waited _ _ := Nat.le_add_right _ _

namespace GitHub

variable {σ : Type} {network : Network (StateM σ)} {c c' : Client} {log log' : List Delivery}
  {s s' : σ}

/-- The ways to go on in which the uptime of a network does not go back. -/
def elapsing (network : Network (StateM σ)) : Evolution (Client × List Delivery × σ) where
  Allows w w' := (network.now w.2.2).uptime ≤ (network.now w'.2.2).uptime
  refl _ := Nat.le_refl _
  trans := Nat.le_trans

theorem elapsing_performance (hclock : network.KeepsTime) {request : Except HttpFault Request}
    {answer : Except TrackerError Response}
    (h : Performance network request c log s answer c' log' s') :
    (network.now s).uptime ≤ (network.now s').uptime := by
  have hlooked := hclock.looked s
  cases h with
  | blocked _ => exact hlooked
  | unmade _ _ => exact hlooked
  | lost _ _ _ => exact Nat.le_trans hlooked (hclock.sent _ _)
  | answered _ _ _ _ =>
    exact Nat.le_trans hlooked (Nat.le_trans (hclock.sent _ _) (hclock.looked _))

theorem uptime_le_of_goes (hclock : network.KeepsTime) {t : Transcript}
    (hgoes : (sessionTracker network).Goes (c, log, s) t (c', log', s')) :
    (network.now s).uptime ≤ (network.now s').uptime := by
  have helapses : (elapsing network).Allows (c, log, s) (c', log', s') := by
    refine allows_of_goes (elapsing network) ?_ ?_ hgoes
    · intro _ _ _ _ _ _ _ _ hperformance
      exact elapsing_performance hclock hperformance
    · intro d _ _ s
      exact hclock.waited d s
  exact helapses

/-! ## Sessions without a quota -/

/-- The quota forbids every request up to the uptime `t`: none remains, and the reset is later. -/
def Quota.ExhaustedBeyond (q : Quota) (t : Nat) : Prop :=
  q.remaining ≤ 0 ∧ ∃ reset, q.resetAt = some reset ∧ t < reset

theorem Quota.ExhaustedBeyond.exists_refusal {q : Quota} {t : Nat} {now : Clock}
    (h : q.ExhaustedBeyond t) (hnow : now.uptime ≤ t) : ∃ d, q.refusal? now = some d := by
  obtain ⟨hremaining, reset, hreset, hlt⟩ := h
  have hwait : now.uptime < reset := by omega
  exact ⟨_, refusal?_eq_some_iff.mpr ⟨hremaining, reset, hreset, hwait, rfl⟩⟩

end GitHub

/-- Nothing was sent for the exchange: it is a pause, or a call that the quota forbade. -/
def Exchange.IsHeldBack (exchange : Exchange) : Prop :=
  ∀ call, exchange.call? = some call → ∃ d, exchange.fault? = some (.rateLimitExceeded d)

namespace GitHub

variable {σ : Type} {network : Network (StateM σ)} {c c' : Client} {log log' : List Delivery}
  {s s' : σ}

/-- One exchange of a client whose quota forbids every request. -/
theorem goes_one_of_exhausted {exchange : Exchange} {t : Nat}
    (hgoes : (sessionTracker network).Goes (c, log, s) [exchange] (c', log', s'))
    (hq : c.quota.ExhaustedBeyond t) (hnow : (network.now s).uptime ≤ t) :
    c' = c ∧ log' = log ∧ exchange.IsHeldBack := by
  rcases exchange.isCall_or_isPause with ⟨call, hcall⟩ | ⟨d, rfl⟩
  · obtain ⟨answer, hperformance, hfault⟩ := performance_of_goes hcall hgoes
    obtain ⟨d, hrefusal⟩ := hq.exists_refusal hnow
    obtain ⟨hanswer, hlog, hc⟩ := blocked_of_refusal? hperformance hrefusal
    exact ⟨hc, hlog, fun _ _ => ⟨d, hfault _ hanswer⟩⟩
  · obtain ⟨hc, hlog, _⟩ := eq_of_goes_pause hgoes
    exact ⟨hc, hlog, fun _ hcall => by cases hcall⟩

/-- **A client whose quota is used up sends nothing**, and stays as it is. The invariant is the quota:
what is refused does not change it. -/
theorem goes_of_exhausted (hclock : network.KeepsTime) {t : Transcript}
    (hgoes : (sessionTracker network).Goes (c, log, s) t (c', log', s'))
    (hq : c.quota.ExhaustedBeyond (network.now s').uptime) :
    log' = log ∧ ∀ exchange ∈ t, exchange.IsHeldBack := by
  -- on the exchanges: after each of them the client is the same, so the quota still forbids the next
  induction t generalizing c log s with
  | nil =>
    cases hgoes
    exact ⟨rfl, by simp⟩
  | cons exchange t ih =>
    have hnow := uptime_le_of_goes hclock hgoes
    obtain ⟨⟨c₁, log₁, s₁⟩, hfirst, hrest⟩ := Tracker.Goes.split (t := [exchange]) hgoes
    obtain ⟨rfl, rfl, hheld⟩ := goes_one_of_exhausted hfirst hq hnow
    obtain ⟨hlog, hothers⟩ := ih hrest hq
    exact ⟨hlog, List.forall_mem_cons.mpr ⟨hheld, hothers⟩⟩

end GitHub

/-! ## Turns without a quota -/

namespace Turn

/-- How the turn of a label goes that is not asked for, or only once and in vain: there is no pause in
it, and the label is found in the view or fails at the first attempt. -/
structure GoesWithout (pr : Nat) (delay : Duration) (view : List String) (turn : Turn) : Prop where
  found : turn.label ∈ view → turn.present? = some turn.label
  refused : turn.label ∉ view →
    ∃ d, turn.failure? = some ⟨turn.label, 1, .rateLimitExceeded d⟩
  unpaused : ∀ d, .pause d ∉ turn.transcript pr delay

theorem goesWithout_of_heldBack {turn : Turn} {pr : Nat} {delay : Duration} {view : List String}
    (hfits : turn.Fits view)
    (hheld : ∀ exchange ∈ turn.transcript pr delay, exchange.IsHeldBack) :
    turn.GoesWithout pr delay view := by
  cases turn with
  | present label => exact ⟨fun _ => rfl, fun h => absurd hfits h, fun _ h => by cases h⟩
  | asked label answers =>
    cases answers with
    | once answer settled =>
      have hfirst : (Exchange.add pr label answer).IsHeldBack := hheld _ List.mem_cons_self
      obtain ⟨d, hd⟩ := hfirst _ rfl
      have hanswer : answer = .error (.rateLimitExceeded d) := by
        cases answer with
        | ok u => cases hd
        | error e => rw [Option.some.inj hd]
      subst hanswer
      exact ⟨fun h => absurd h hfits, fun _ => ⟨d, rfl⟩,
        fun _ h => by cases List.mem_singleton.mp h⟩
    | twice fault transient answer =>
      -- a refusal is no reason to ask again
      have hfirst : (Exchange.add pr label (.error fault)).IsHeldBack :=
        hheld _ List.mem_cons_self
      obtain ⟨d, hd⟩ := hfirst _ rfl
      rw [Option.some.inj hd] at transient
      cases transient

end Turn

/-- What a transcript has added, the report of its application calls applied. -/
theorem Application.mem_applied_of_mem {course : Application} {pr : Nat} {delay : Duration}
    {label : String} (h : .add pr label (.ok ()) ∈ course.transcript pr delay) :
    label ∈ course.report.applied := by
  rw [← course.added_transcript pr delay]
  exact List.mem_filterMap.mpr ⟨_, h, rfl⟩

namespace Applier

variable {σ : Type} {network : Network (StateM σ)}

/-- A run over a client has a shape, and its exchanges are those of a session. -/
theorem exists_session (network : Network (StateM σ)) (a : Applier) (pr : Nat)
    (decision : Decision) (table : RuleTable) (c : Client) (s : σ) :
    let ran := ((a.apply (Client.tracker network) pr decision table).run c).run s
    ∃ (course : Application) (log : List Delivery), course.Fits a table decision
      ∧ ran.1.1 = course.report
      ∧ (sessionTracker network).Goes (c, [], s) (course.transcript pr a.retryDelay)
          (ran.1.2, log, ran.2) := by
  intro ran
  obtain ⟨course, hfits, hgoes, _, _, _, hrun⟩ :=
    a.apply_follows_protocol (sessionTracker network) pr decision table (c, [], s)
  have hsame := (sessionSimulation network).relates_apply a pr decision table c [] s
  rw [hrun] at hsame
  generalize (a.recordedRun (sessionTracker network) pr decision table (c, [], s)).2 = final
    at hgoes hsame
  have hran : ran = ((course.report, final.1), final.2.2) := hsame.symm
  rw [hran]
  exact ⟨course, final.2.1, hfits, rfl, hgoes⟩

/--
**A run whose quota is used up on the way.**

A run over a client has a shape with a report, and its exchanges are those of the client with the
network, over which the requests in `log` are sent. Let `past` be some of its exchanges, from the first
one on, and let the client be left by them with no requests and with a reset that is later than the
end of the run. Then every request of the run has been sent by then. What was added by then is
reported as applied, even if that used up the quota. And if the run is not skipped, every label whose
turn is later is found in the view or, without a pause, fails at its first attempt because of the
quota.
-/
theorem exhausted_run_loses_no_label (hclock : network.KeepsTime) (a : Applier) (pr : Nat)
    (decision : Decision) (table : RuleTable) (c : Client) (s : σ) :
    let ran := ((a.apply (Client.tracker network) pr decision table).run c).run s
    ∃ (course : Application) (log : List Delivery), course.Fits a table decision
      ∧ ran.1.1 = course.report
      ∧ (sessionTracker network).Goes (c, [], s) (course.transcript pr a.retryDelay)
          (ran.1.2, log, ran.2)
      ∧ ∀ past c₁ log₁ s₁, past <+: course.transcript pr a.retryDelay →
          (sessionTracker network).Goes (c, [], s) past (c₁, log₁, s₁) →
          c₁.quota.ExhaustedBeyond (network.now ran.2).uptime →
          log = log₁
          ∧ (∀ label, .add pr label (.ok ()) ∈ past → label ∈ ran.1.1.applied)
          ∧ ∀ listing earlier turn later, course = .carried listing (earlier ++ turn :: later) →
              past <+: listing.transcript (.list pr) a.retryDelay
                ++ earlier.flatMap (Turn.transcript pr a.retryDelay) →
              turn.GoesWithout pr a.retryDelay listing.view := by
  intro ran
  obtain ⟨course, log, hfits, hreport, hgoes⟩ := exists_session network a pr decision table c s
  refine ⟨course, log, hfits, hreport, hgoes, ?_⟩
  rintro past c₁ log₁ s₁ ⟨future, hsplit⟩ hpast hq
  -- the past ends in one state only, and the future starts from it
  have hfuture : (sessionTracker network).Goes (c₁, log₁, s₁) future (ran.1.2, log, ran.2) := by
    rw [← hsplit] at hgoes
    obtain ⟨w, hw, hrest⟩ := hgoes.split
    rw [hpast.unique hw]
    exact hrest
  obtain ⟨hlog, hheld⟩ := goes_of_exhausted hclock hfuture hq
  refine ⟨hlog, fun label hadded => ?_, fun listing earlier turn later hcourse hlater => ?_⟩
  · have hmem : .add pr label (.ok ()) ∈ course.transcript pr a.retryDelay := by
      rw [← hsplit]
      exact List.mem_append_left _ hadded
    rw [hreport]
    exact course.mem_applied_of_mem hmem
  · subst hcourse
    have hfit : turn.Fits listing.view := hfits.2.2.2 turn (by simp)
    refine Turn.goesWithout_of_heldBack hfit fun exchange hexchange => hheld exchange ?_
    -- the turn comes after what is past, so its exchanges are in the future
    obtain ⟨between, hbetween⟩ := hlater
    have htail : future = between ++ (turn.transcript pr a.retryDelay
        ++ later.flatMap (Turn.transcript pr a.retryDelay)) := by
      have hwhole : past ++ future = past ++ (between ++ (turn.transcript pr a.retryDelay
          ++ later.flatMap (Turn.transcript pr a.retryDelay))) := by
        rw [hsplit, ← List.append_assoc, hbetween]
        simp [Application.transcript, List.flatMap_append]
      exact List.append_cancel_left hwhole
    rw [htail]
    exact List.mem_append_right _ (List.mem_append_left _ hexchange)

/-- The response that adds the first label says that no request remains. The second label fails, and
the third is found. -/
theorem exhausted_run_loses_no_label_second :
    let a : Applier := { skipIfLabeled := true }
    let decision : Decision := ⟨["t-algebra", "t-topology", "WIP"], .all⟩
    let c : Client := { baseUrl := "http://h", token := "tok", repository := ⟨"o", "r"⟩ }
    let responses : List Response :=
      [{ body := Text.bytes "[\x7b\"name\":\"WIP\"\x7d]" },
        { headers := [("X-RateLimit-Remaining", "0"), ("X-RateLimit-Reset", "9000")] }]
    let s : NetworkScript :=
      { replies := responses.map fun r => ⟨some r, .zero⟩, clock := ⟨0, 1000 * Duration.perSecond⟩ }
    let ran := ((a.apply (Client.tracker NetworkScript.network) 7 decision .twoTopics).run c).run s
    NetworkScript.network.KeepsTime ∧ "t-algebra" ∈ ran.1.1.applied
      ∧ (∃ d, ⟨"t-topology", 1, .rateLimitExceeded d⟩ ∈ ran.1.1.failed)
      ∧ "WIP" ∈ ran.1.1.alreadyPresent := by
  intro a decision c responses s ran
  let tracker := sessionTracker NetworkScript.network
  -- the states are only known by what is asked in them, so that they are not computed again
  obtain ⟨w₁, w₂, w₃, hlist, hadded, hrefused, hq⟩ : ∃ w₁ w₂ w₃,
      (tracker.list 7).run (c, [], s) = (.ok ["WIP"], w₁)
        ∧ (tracker.add 7 "t-algebra").run w₁ = (.ok (), w₂)
        ∧ (tracker.add 7 "t-topology").run w₂
            = (.error (.rateLimitExceeded (.ofSeconds 8000)), w₃)
        ∧ w₂.1.quota.ExhaustedBeyond (NetworkScript.network.now ran.2).uptime := by
    let w₁ := ((tracker.list 7).run (c, [], s)).2
    let w₂ := ((tracker.add 7 "t-algebra").run w₁).2
    let w₃ := ((tracker.add 7 "t-topology").run w₂).2
    exact ⟨w₁, w₂, w₃, Prod.ext (by decide +kernel) rfl, Prod.ext (by decide +kernel) rfl,
      Prod.ext (by decide +kernel) rfl, by decide +kernel, 8000 * Duration.perSecond,
      by decide +kernel, by decide +kernel⟩
  let listing : Answers (List String) := .once (.ok ["WIP"]) nofun
  let first : Turn := .asked "t-algebra" (.once (.ok ()) nofun)
  let second : Turn := .asked "t-topology"
    (.once (.error (.rateLimitExceeded (.ofSeconds 8000))) fun _ h => by cases h; rfl)
  let past : Transcript := [.list 7 (.ok ["WIP"]), .add 7 "t-algebra" (.ok ())]
  have hpast : tracker.Goes (c, [], s) past w₂ := .list hlist (.add hadded .nil)
  have hexpected : tracker.Goes (c, [], s)
      ((Application.carried listing [first, second, .present "WIP"]).transcript 7 a.retryDelay) w₃ :=
    hpast.append (.add hrefused .nil)
  obtain ⟨course, log, hfits, hreport, hgoes, hquota⟩ :=
    exhausted_run_loses_no_label NetworkScript.keepsTime a 7 decision .twoTopics c s
  obtain rfl : course = .carried listing [first, second, .present "WIP"] :=
    Application.unique hfits ⟨by decide, by decide, rfl, by decide⟩ hgoes hexpected
  obtain ⟨_, happlied, hlater⟩ := hquota past w₂.1 w₂.2.1 w₂.2.2 ⟨_, rfl⟩ hpast hq
  have hsecond := hlater listing [first] second [.present "WIP"] rfl (List.prefix_refl _)
  have hthird := hlater listing [first, second] (.present "WIP") [] rfl ⟨_, rfl⟩
  obtain ⟨d, hd⟩ := hsecond.refused (by decide)
  simp only [ran]
  rw [hreport] at happlied ⊢
  refine ⟨NetworkScript.keepsTime, happlied _ (.tail _ (.head _)), ⟨d, ?_⟩, ?_⟩
  · exact List.mem_filterMap.mpr ⟨second, .tail _ (.head _), hd⟩
  · exact List.mem_filterMap.mpr ⟨.present "WIP", by simp, hthird.found (by decide)⟩

end Applier

end PathLabels
