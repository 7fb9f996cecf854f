import PathLabels.Proofs.Reruns

/-!
# Applying a decision a second time

Once a decision has been applied without a failure, applying it again does nothing. The first run may
have added the labels, found them, added them without having seen what was there, or left the pull
request alone; what the second one finds is the same in all cases, and it is a statement about the
labels alone. They are *settled*: either one of them makes the applier leave the pull request alone,
or all labels of the decision are among them. A run over settled labels that can read them asks for
nothing, and so they stay settled.
-/

namespace PathLabels

namespace Turn

variable {turns : List Turn} {view : List String}

theorem eq_present_of_mem_view {turn : Turn} (hfits : turn.Fits view) (h : turn.label ∈ view) :
    turn = .present turn.label := by
  cases turn with
  | present label => rfl
  | asked label answers => exact absurd h hfits

/-- If every label is in the view, the turns only find labels. -/
theorem eq_map_present (hfits : ∀ turn ∈ turns, turn.Fits view)
    (hall : ∀ l ∈ turns.map label, l ∈ view) : turns = (turns.map label).map present := by
  rw [List.map_map]
  refine (List.map_id turns).symm.trans (List.map_congr_left fun turn hturn => ?_)
  exact eq_present_of_mem_view (hfits turn hturn) (hall _ (List.mem_map_of_mem hturn))

theorem report_map_present (labels : List String) :
    report (labels.map present) = { alreadyPresent := labels } := by
  have happlied : applied? ∘ present = fun _ => none := rfl
  have hpresent : present? ∘ present = some := rfl
  have hfailed : failure? ∘ present = fun _ => none := rfl
  simp only [report, List.filterMap_map, happlied, hpresent, hfailed, List.filterMap_some]
  simp

theorem calls_map_present (labels : List String) (pr : Nat) :
    (labels.map present).flatMap (calls pr) = [] := by
  refine List.flatMap_eq_nil_iff.mpr fun turn hturn => ?_
  obtain ⟨l, _, rfl⟩ := List.mem_map.mp hturn
  rfl

end Turn

theorem Answers.add_not_mem_calls {α : Type} (answers : Answers α) (pr : Nat) {pr' : Nat}
    {l : String} : TrackerCall.add pr' l ∉ answers.calls (.list pr) := by
  intro h
  obtain ⟨_, _, heq⟩ := List.mem_map.mp h
  cases heq

namespace Applier

/-- Labels that leave an applier nothing to do: one of them keeps it off, or the decision's are all
there. -/
def Settled (a : Applier) (table : RuleTable) (decision : Decision) (labels : List String) : Prop :=
  (a.skipLabel? table decision labels).isSome = true ∨ ∀ l ∈ decision.labels, l ∈ labels

variable {a : Applier} {table : RuleTable} {decision : Decision} {pr : Nat}

/-- More labels can only add reasons to leave a pull request alone. -/
theorem isSome_skipLabel?_of_subset {view labels : List String} (hsub : ∀ l ∈ view, l ∈ labels)
    (h : (a.skipLabel? table decision view).isSome = true) :
    (a.skipLabel? table decision labels).isSome = true := by
  rw [Option.isSome_iff_ne_none] at h ⊢
  intro hnone
  refine h (skipLabel?_eq_none_iff.mpr fun hskip l hl => ?_)
  exact skipLabel?_eq_none_iff.mp hnone hskip l (hsub l hl)

/-- **A run without a failure settles the labels**, whatever it could read. -/
theorem settled_rerun (s : MemoryTracker) (faults : MemoryTracker.Faults)
    (hfailed : (a.rerun pr decision table s faults).1.1.failed = []) :
    a.Settled table decision (a.rerun pr decision table s faults).2.labels := by
  obtain ⟨course, hfits, hreads, hrun, hlabels⟩ :=
    a.recordedRun_memory pr decision table (s.withFaults faults)
  have hreport : (a.rerun pr decision table s faults).1.1 = course.report := congrArg Prod.fst hrun
  rw [hreport] at hfailed
  have hread : ∀ l ∈ (s.withFaults faults).view,
      l ∈ (a.rerun pr decision table s faults).2.labels := fun l hl => by
    rw [rerun, hlabels, MemoryTracker.mem_addLabels]
    exact Or.inl (MemoryTracker.mem_labels_of_mem_view hl)
  cases course with
  | idle =>
    refine Or.inr fun l hl => ?_
    rw [show decision.labels = [] from hfits] at hl
    cases hl
  | skipped listing label =>
    have hskipped : (a.skipLabel? table decision listing.view).isSome = true := by
      rw [hfits.2]
      rfl
    -- the label for which the first run stopped is still there
    refine Or.inl (isSome_skipLabel?_of_subset ?_ hskipped)
    rw [show listing.view = _ from hreads]
    exact hread
  | carried listing turns =>
    refine Or.inr fun l hl => ?_
    rcases Turn.mem_report_of_failed hfailed (hfits.2.2.1 ▸ hl) with h | h
    · refine hread l ?_
      rw [← show listing.view = _ from hreads]
      exact Turn.mem_view_of_mem_alreadyPresent hfits.2.2.2 h
    · rw [rerun, hlabels, MemoryTracker.mem_addLabels]
      exact Or.inr h

/-- **A run that can read settled labels does nothing.** -/
theorem rerun_of_settled {s : MemoryTracker} {faults : MemoryTracker.Faults}
    (hsettled : a.Settled table decision s.labels)
    (hanswered : decision.labels ≠ [] → (s.withFaults faults).isAnswered = true) :
    let run := a.rerun pr decision table s faults
    (∀ pr' l, .add pr' l ∉ run.1.2.calls) ∧ run.2.labels = s.labels
      ∧ ((∃ l, run.1.1 = { skippedFor := some l })
        ∨ (decision.labels = [] ∧ run.1.1 = {})
        ∨ run.1.1 = { alreadyPresent := decision.labels }) := by
  intro run
  obtain ⟨course, hfits, hreads, hrun, hlabels⟩ :=
    a.recordedRun_memory pr decision table (s.withFaults faults)
  have hreport : run.1.1 = course.report := congrArg Prod.fst hrun
  have hcalls : run.1.2.calls = course.calls pr :=
    (congrArg (fun ran => ran.2.calls) hrun).trans (List.nil_append _)
  have hview : decision.labels ≠ [] → (s.withFaults faults).view = s.labels := fun hne => by
    rw [MemoryTracker.view, if_pos (hanswered hne)]
    rfl
  rw [hreport, hcalls, show run.2.labels = _ from hlabels]
  cases course with
  | idle => exact ⟨fun _ _ => List.not_mem_nil, rfl, Or.inr (Or.inl ⟨hfits, rfl⟩)⟩
  | skipped listing label =>
    exact ⟨fun _ _ => listing.add_not_mem_calls pr, rfl, Or.inl ⟨label, rfl⟩⟩
  | carried listing turns =>
    obtain ⟨hne, hnone, hturns, hfit⟩ := hfits
    have hlisting : listing.view = s.labels := (show listing.view = _ from hreads).trans (hview hne)
    rw [hlisting] at hnone hfit
    have hall : ∀ l ∈ decision.labels, l ∈ s.labels := by
      refine hsettled.resolve_left fun hsome => ?_
      rw [hnone] at hsome
      cases hsome
    -- so every turn finds its label
    have hpresent : turns = decision.labels.map .present := by
      rw [← hturns]
      exact Turn.eq_map_present hfit (hturns.symm ▸ hall)
    have happlication : Application.report (.carried listing turns)
        = { alreadyPresent := decision.labels } := by
      rw [Application.report, hpresent, Turn.report_map_present]
    rw [happlication]
    refine ⟨fun pr' l hcall => ?_, rfl, Or.inr (Or.inr rfl)⟩
    rw [Application.calls, hpresent, Turn.calls_map_present, List.append_nil] at hcall
    exact listing.add_not_mem_calls pr hcall

/--
**Applying twice is applying once.**

The first run meets the faults `faults` and no label fails in it; its listing may have failed, and it
may have been skipped. Then comes a second run of the same decision with other faults, whose listing
is answered if it lists the labels at all. It adds nothing, leaves the labels exactly as the first
run left them, and reports that it was skipped, that there was nothing to do, or that all labels of
the decision are there, in their order.
-/
theorem second_run_changes_nothing (a : Applier) (pr : Nat) (decision : Decision)
    (table : RuleTable) (s : MemoryTracker) (faults faults' : MemoryTracker.Faults) :
    let first := a.rerun pr decision table s faults
    let second := a.rerun pr decision table first.2 faults'
    first.1.1.failed = [] →
    (decision.labels ≠ [] → (first.2.withFaults faults').isAnswered = true) →
    (∀ pr' l, .add pr' l ∉ second.1.2.calls) ∧ second.2.labels = first.2.labels
      ∧ ((∃ l, second.1.1 = { skippedFor := some l })
        ∨ (decision.labels = [] ∧ second.1.1 = {})
        ∨ second.1.1 = { alreadyPresent := decision.labels }) := by
  intro first second hfailed hanswered
  exact rerun_of_settled (settled_rerun s faults hfailed) hanswered

/-- The first listing fails twice, so the label is added beside one of another topic; the second run
sees both and is skipped. -/
theorem second_run_changes_nothing_blind :
    let a : Applier := { skipIfLabeled := true }
    let decision : Decision := ⟨["t-algebra", "t-algebra"], .all⟩
    let blind : MemoryTracker.Faults := { list := [some (.api 502 "down"), some (.api 502 "down")] }
    let first := a.rerun 7 decision .twoTopics { labels := ["t-topology"] } blind
    let second := a.rerun 7 decision .twoTopics first.2 { list := [some (.api 502 "down")] }
    first.1.1.failed = [] ∧ first.2.labels = ["t-topology", "t-algebra"]
      ∧ second.1.1 = { skippedFor := some "t-topology" }
      ∧ second.2.labels = first.2.labels ∧ .add 7 "t-algebra" ∉ second.1.2.calls := by
  intro a decision blind first second
  have hfailed : first.1.1.failed = [] := by decide
  obtain ⟨hcalls, hlabels, _⟩ := second_run_changes_nothing a 7 decision .twoTopics
    { labels := ["t-topology"] } blind { list := [some (.api 502 "down")] } hfailed
    (fun _ => by decide)
  exact ⟨hfailed, by decide, by decide, hlabels, hcalls 7 "t-algebra"⟩

end Applier

end PathLabels
