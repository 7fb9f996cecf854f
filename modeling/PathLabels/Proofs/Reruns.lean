import PathLabels.Proofs.Additive
import PathLabels.Proofs.Skip
import PathLabels.Proofs.Turns

/-!
# Applying one decision again and again

A decision that could not be applied as a whole is applied again, and again, with other faults in
the way each time. Such runs never undo each other and never keep each other from going on, because
the labels of the decision itself are no reason to leave a pull request alone.

The invariant is `MemoryTracker.Extends`: the labels are the first ones and then labels of the
decision, each once. It says at once that no run is skipped, so every run gives every label its turn.
-/

namespace PathLabels

/-! ## One run -/

namespace Applier

variable (a : Applier) (pr : Nat) (decision : Decision) (table : RuleTable)

/-- Applies a decision to the labels in memory while the given faults are laid down. -/
def rerun (s : MemoryTracker) (faults : MemoryTracker.Faults) :
    (Report × Journal) × MemoryTracker :=
  a.recordedRun MemoryTracker.tracker pr decision table (s.withFaults faults)

/-- What is left after runs of one decision, each with faults of its own. -/
def reruns (s : MemoryTracker) (runs : List MemoryTracker.Faults) : MemoryTracker :=
  runs.foldl (fun s faults => (a.rerun pr decision table s faults).2) s

/-- **A run adds labels of its decision and nothing else.** -/
theorem labels_rerun (s : MemoryTracker) (faults : MemoryTracker.Faults) :
    ∃ more, (a.rerun pr decision table s faults).2.labels = MemoryTracker.addLabels s.labels more
      ∧ ∀ l ∈ more, l ∈ decision.labels := by
  obtain ⟨course, hfits, _, _, hlabels⟩ :=
    a.recordedRun_memory pr decision table (s.withFaults faults)
  refine ⟨course.report.applied, hlabels, fun l hl => ?_⟩
  cases course with
  | idle => cases hl
  | skipped listing label => cases hl
  | carried listing turns => exact hfits.2.2.1 ▸ Turn.mem_labels_of_mem_applied hl

variable {decision table} {s s₀ : MemoryTracker}

/-- If no label of the table stands in the way, every label of the decision has its turn. -/
theorem rerun_carried (hne : decision.labels ≠ []) (hnone : ∀ l ∈ s.labels, ¬Foreign table decision l)
    (faults : MemoryTracker.Faults) :
    ∃ (listing : Answers (List String)) (turns : List Turn),
      turns.map Turn.label = decision.labels
        ∧ (∀ turn ∈ turns, turn.Fits (s.withFaults faults).view)
        ∧ (a.rerun pr decision table s faults).1.1 = Turn.report turns
        ∧ (a.rerun pr decision table s faults).1.2.calls
            = listing.calls (.list pr) ++ turns.flatMap (Turn.calls pr)
        ∧ (a.rerun pr decision table s faults).2.labels
            = MemoryTracker.addLabels s.labels (Turn.report turns).applied := by
  obtain ⟨course, hfits, hreads, hrun, hlabels⟩ :=
    a.recordedRun_memory pr decision table (s.withFaults faults)
  cases course with
  | idle => exact absurd hfits hne
  | skipped listing label =>
    -- what is read is there, and nothing that is there stands in the way
    have hskip : a.skipLabel? table decision listing.view = none := by
      refine skipLabel?_eq_none_iff.mpr fun _ l hl => ?_
      rw [show listing.view = _ from hreads] at hl
      exact hnone l (MemoryTracker.mem_labels_of_mem_view (s := s.withFaults faults) hl)
    rw [hfits.2] at hskip
    cases hskip
  | carried listing turns =>
    refine ⟨listing, turns, hfits.2.2.1, ?_, congrArg Prod.fst hrun, ?_, hlabels⟩
    · rw [← show listing.view = _ from hreads]
      exact hfits.2.2.2
    · exact congrArg (fun run => run.2.calls) hrun

/-! ## Any number of runs -/

variable {a pr}

theorem extends_rerun (h : MemoryTracker.Extends decision.labels s₀.labels s.labels)
    (faults : MemoryTracker.Faults) :
    MemoryTracker.Extends decision.labels s₀.labels
      (a.rerun pr decision table s faults).2.labels := by
  obtain ⟨more, hlabels, hmore⟩ := a.labels_rerun pr decision table s faults
  rw [hlabels]
  exact MemoryTracker.extends_addLabels h hmore

theorem extends_reruns (h : MemoryTracker.Extends decision.labels s₀.labels s.labels)
    (runs : List MemoryTracker.Faults) :
    MemoryTracker.Extends decision.labels s₀.labels
      (a.reruns pr decision table s runs).labels := by
  induction runs generalizing s with
  | nil => exact h
  | cons faults runs ih => exact ih (extends_rerun h faults)

/-- A label that is there stays there. -/
theorem mem_labels_reruns {l : String} (h : l ∈ s.labels) (runs : List MemoryTracker.Faults) :
    l ∈ (a.reruns pr decision table s runs).labels := by
  induction runs generalizing s with
  | nil => exact h
  | cons faults runs ih =>
    obtain ⟨more, hlabels, _⟩ := a.labels_rerun pr decision table s faults
    refine ih ?_
    rw [hlabels]
    exact MemoryTracker.mem_addLabels.mpr (Or.inl h)

/-- Labels of the decision are no reason to leave a pull request alone. -/
theorem not_foreign_of_extends (h : MemoryTracker.Extends decision.labels s₀.labels s.labels)
    (h₀ : ∀ l ∈ s₀.labels, ¬Foreign table decision l) :
    ∀ l ∈ s.labels, ¬Foreign table decision l := by
  obtain ⟨new, hlabels, _, hnew⟩ := h
  intro l hl hforeign
  rw [hlabels] at hl
  rcases List.mem_append.mp hl with hl | hl
  · exact h₀ l hl hforeign
  · exact hforeign.2 (hnew l hl).1

/--
**Runs of one decision converge**, whatever faults lie in their way.

`s` is what the pull request carries at first, without a table label outside the decision; then come
the runs `earlier`, the runs `between`, and one more. The last run is not skipped. After it the
labels are the first ones followed by labels of the decision that were not among them, each once. If
its listing is answered, no label that was there after the runs `earlier` is added. And if no label
fails in it, its outcome is complete and every label of the decision is there.
-/
theorem reruns_converge (a : Applier) (pr : Nat) (decision : Decision) (table : RuleTable)
    (s : MemoryTracker) (hne : decision.labels ≠ [])
    (hfirst : ∀ l ∈ s.labels, table.isKnownLabel l = true → l ∈ decision.labels)
    (earlier between : List MemoryTracker.Faults) (faults : MemoryTracker.Faults) :
    let present := a.reruns pr decision table s earlier
    let before := a.reruns pr decision table present between
    let run := a.rerun pr decision table before faults
    run.1.1.skippedFor = none
      ∧ (∃ new, run.2.labels = s.labels ++ new ∧ new.Nodup
          ∧ ∀ l ∈ new, l ∈ decision.labels ∧ l ∉ s.labels)
      ∧ ((before.withFaults faults).isAnswered = true →
          ∀ l ∈ present.labels, .add pr l ∉ run.1.2.calls)
      ∧ (run.1.1.failed = [] →
          run.1.1.outcome = .complete ∧ ∀ l ∈ decision.labels, l ∈ run.2.labels) := by
  intro present before run
  have hpresent : MemoryTracker.Extends decision.labels s.labels present.labels :=
    extends_reruns (MemoryTracker.extends_refl _ _) earlier
  have hbefore : MemoryTracker.Extends decision.labels s.labels before.labels :=
    extends_reruns hpresent between
  have hnone : ∀ l ∈ before.labels, ¬Foreign table decision l :=
    not_foreign_of_extends hbefore fun l hl hforeign => hforeign.2 (hfirst l hl hforeign.1)
  obtain ⟨listing, turns, hturns, hfits, hreport, hcalls, hlabels⟩ :=
    a.rerun_carried pr hne hnone faults
  refine ⟨?_, extends_rerun hbefore faults, ?_, ?_⟩
  · rw [hreport]
    rfl
  · intro hanswered l hl hcall
    have hview : l ∈ (before.withFaults faults).view := by
      rw [MemoryTracker.view, if_pos hanswered]
      exact mem_labels_reruns hl between
    rw [hcalls] at hcall
    -- a listing is no addition, and a label that has been read is not asked for
    rcases List.mem_append.mp hcall with h | h
    · obtain ⟨_, _, heq⟩ := List.mem_map.mp h
      cases heq
    · exact Turn.add_not_mem_calls hfits hview h
  · intro hfailed
    rw [hreport] at hfailed ⊢
    refine ⟨Turn.outcome_of_failed hfailed (hturns ▸ hne), fun l hl => ?_⟩
    rw [hlabels, MemoryTracker.mem_addLabels]
    rcases Turn.mem_report_of_failed hfailed (hturns ▸ hl) with h | h
    · exact Or.inl (MemoryTracker.mem_labels_of_mem_view (s := before.withFaults faults)
        (Turn.mem_view_of_mem_alreadyPresent hfits h))
    · exact Or.inr h

/-- Two labels, of which the second is refused at first; then the listing fails; then all goes
well. -/
theorem reruns_converge_two :
    let a : Applier := { skipIfLabeled := true }
    let decision : Decision := ⟨["t-algebra", "t-topology"], .all⟩
    let s : MemoryTracker := { labels := ["WIP"] }
    let partly : MemoryTracker.Faults := { rejected := [("t-topology", .api 422 "no")] }
    let blind : MemoryTracker.Faults :=
      { list := [some (.api 502 "down"), some (.api 502 "down")],
        rejected := [("t-topology", .api 422 "no")] }
    let before := a.reruns 7 decision .twoTopics s [partly, blind]
    let run := a.rerun 7 decision .twoTopics before {}
    (∀ l ∈ s.labels, RuleTable.twoTopics.isKnownLabel l = true → l ∈ decision.labels)
      ∧ run.1.1.failed = [] ∧ .add 7 "t-algebra" ∉ run.1.2.calls
      ∧ run.1.1.outcome = .complete ∧ ∀ l ∈ decision.labels, l ∈ run.2.labels := by
  intro a decision s partly blind before run
  have hfirst : ∀ l ∈ s.labels, RuleTable.twoTopics.isKnownLabel l = true → l ∈ decision.labels := by
    decide
  have hfailed : run.1.1.failed = [] := by decide
  obtain ⟨_, _, hcalls, hcomplete⟩ := reruns_converge a 7 decision .twoTopics s (by decide) hfirst
    [partly] [blind] {}
  exact ⟨hfirst, hfailed, hcalls (by decide) "t-algebra" (by decide), hcomplete hfailed⟩

end Applier

end PathLabels
