import PathLabels.Proofs.Additive
import PathLabels.Proofs.Skip
import PathLabels.Proofs.Turns

/-!
# The report accounts for every label

A report has three lists, and whoever reads it wants to know of each label of the decision what has
become of it. A label that stood in none of the lists would be lost without a word, and one that
stood in two would be reported both ways. So the report is read against the decision: going through
the decision label by label, each one is the next entry of exactly one list, and no list holds
anything else. A decision may hold a label twice, and then each occurrence has its own entry.

What is reported is also what happened: over labels in memory, the labels reported as there are
there, and a label that could not be added is not.
-/

namespace PathLabels

/-! ## Going through the labels -/

/-- Three lists account for labels: each label in turn is the next entry of one of the lists, and
nothing is left of the lists when there are no more labels. -/
inductive Accounts :
    (labels applied present : List String) → (failed : List ApplyError) → Prop where
  | nil : Accounts [] [] [] []
  | applied {labels applied present : List String} {failed : List ApplyError} (label : String) :
      Accounts labels applied present failed →
      Accounts (label :: labels) (label :: applied) present failed
  | present {labels applied present : List String} {failed : List ApplyError} (label : String) :
      Accounts labels applied present failed →
      Accounts (label :: labels) applied (label :: present) failed
  | failed {labels applied present : List String} {failed : List ApplyError} (e : ApplyError) :
      Accounts labels applied present failed →
      Accounts (e.label :: labels) applied present (e :: failed)

namespace Accounts

variable {labels applied present : List String} {failed : List ApplyError}

/-- Each list is in the order of the labels. -/
theorem sublists (h : Accounts labels applied present failed) :
    applied.Sublist labels ∧ present.Sublist labels
      ∧ (failed.map ApplyError.label).Sublist labels := by
  induction h with
  | nil => exact ⟨.slnil, .slnil, .slnil⟩
  | applied label _ ih => exact ⟨ih.1.cons_cons label, ih.2.1.cons label, ih.2.2.cons label⟩
  | present label _ ih => exact ⟨ih.1.cons label, ih.2.1.cons_cons label, ih.2.2.cons label⟩
  | failed e _ ih => exact ⟨ih.1.cons e.label, ih.2.1.cons e.label, ih.2.2.cons_cons e.label⟩

/-- Together the lists hold the labels, each as often as the labels do. -/
theorem perm (h : Accounts labels applied present failed) :
    (applied ++ present ++ failed.map ApplyError.label).Perm labels := by
  induction h with
  | nil => exact .nil
  | applied label _ ih => exact ih.cons label
  | @present labels applied present failed label _ ih =>
    rw [List.append_assoc] at ih ⊢
    exact List.perm_middle.trans (ih.cons label)
  | failed e _ ih =>
    rw [List.map_cons]
    exact List.perm_middle.trans (ih.cons e.label)

end Accounts

/-! ## Turns account for their labels -/

namespace Turn

variable {turns : List Turn} {view : List String} {l : String}

/-- One more turn puts its label into one list and leaves the other two alone. -/
theorem accounts_cons (turn : Turn)
    (h : Accounts (turns.map label) (report turns).applied (report turns).alreadyPresent
      (report turns).failed) :
    Accounts ((turn :: turns).map label) (report (turn :: turns)).applied
      (report (turn :: turns)).alreadyPresent (report (turn :: turns)).failed := by
  cases turn with
  | present label => exact h.present label
  | asked label answers =>
    have hpresent : (asked label answers).present? = none := rfl
    simp only [report, List.filterMap_cons_none hpresent]
    cases hlast : answers.last with
    | ok u =>
      have happlied : (asked label answers).applied? = some label := by rw [applied?, hlast]
      have hfailure : (asked label answers).failure? = none := by rw [failure?, hlast]
      rw [List.filterMap_cons_some happlied, List.filterMap_cons_none hfailure]
      exact h.applied label
    | error e =>
      have happlied : (asked label answers).applied? = none := by rw [applied?, hlast]
      have hfailure : (asked label answers).failure? = some ⟨label, answers.all.length, e⟩ := by
        rw [failure?, hlast]
      rw [List.filterMap_cons_none happlied, List.filterMap_cons_some hfailure]
      exact h.failed ⟨label, answers.all.length, e⟩

theorem accounts_report (turns : List Turn) :
    Accounts (turns.map label) (report turns).applied (report turns).alreadyPresent
      (report turns).failed := by
  induction turns with
  | nil => exact .nil
  | cons turn turns ih => exact accounts_cons turn ih

/-- A label in the view is found there at each of its turns. -/
theorem mem_alreadyPresent_of_mem_view (hfits : ∀ turn ∈ turns, turn.Fits view)
    (hl : l ∈ turns.map label) (hview : l ∈ view) : l ∈ (report turns).alreadyPresent := by
  obtain ⟨turn, hturn, rfl⟩ := List.mem_map.mp hl
  have hfit := hfits turn hturn
  cases turn with
  | present label => exact List.mem_filterMap.mpr ⟨_, hturn, rfl⟩
  | asked label answers => exact absurd hview hfit

end Turn

namespace Application

variable {a : Applier} {table : RuleTable} {decision : Decision} {course : Application}

theorem accounts_report (hfits : course.Fits a table decision)
    (hskip : course.report.skippedFor = none) :
    Accounts decision.labels course.report.applied course.report.alreadyPresent
      course.report.failed := by
  cases course with
  | idle => rw [show decision.labels = [] from hfits]; exact .nil
  | skipped listing label => cases hskip
  | carried listing turns => rw [← hfits.2.2.1]; exact Turn.accounts_report turns

end Application

/-! ## The account of an application -/

namespace Applier

variable (a : Applier) (pr : Nat) (decision : Decision) (table : RuleTable)

/-- The labels are there that the report says are there, if the application could read them. -/
theorem mem_labels_iff_of_isAnswered {s : MemoryTracker} (hanswered : s.isAnswered = true)
    (hskip : ((a.apply MemoryTracker.tracker pr decision table).run s).1.skippedFor = none)
    {l : String} (hl : l ∈ decision.labels) :
    l ∈ ((a.apply MemoryTracker.tracker pr decision table).run s).2.labels
      ↔ l ∈ ((a.apply MemoryTracker.tracker pr decision table).run s).1.applied
        ∨ l ∈ ((a.apply MemoryTracker.tracker pr decision table).run s).1.alreadyPresent := by
  obtain ⟨course, hfits, hreads, hrun, hlabels⟩ := a.recordedRun_memory pr decision table s
  rw [a.run_eq_recordedRun, hrun] at hskip
  rw [a.run_eq_recordedRun, hrun]
  dsimp only
  rw [hlabels, MemoryTracker.mem_addLabels]
  cases course with
  | idle =>
    rw [show decision.labels = [] from hfits] at hl
    cases hl
  | skipped listing label => cases hskip
  | carried listing turns =>
    obtain ⟨_, _, hturns, hfit⟩ := hfits
    have hview : listing.view = s.labels := by
      rw [show listing.view = _ from hreads, MemoryTracker.view, if_pos hanswered]
    -- what was there has been read, so its turns found it there
    constructor
    · rintro (h | h)
      · exact Or.inr (Turn.mem_alreadyPresent_of_mem_view hfit (hturns ▸ hl) (hview ▸ h))
      · exact Or.inl h
    · rintro (h | h)
      · exact Or.inr h
      · exact Or.inl (hview ▸ Turn.mem_view_of_mem_alreadyPresent hfit h)

theorem mem_labels_run {s : MemoryTracker} {l : String} (h : l ∈ s.labels) :
    l ∈ ((a.apply MemoryTracker.tracker pr decision table).run s).2.labels := by
  obtain ⟨course, _, _, _, hlabels⟩ := a.recordedRun_memory pr decision table s
  rw [a.run_eq_recordedRun]
  dsimp only
  rw [hlabels, MemoryTracker.mem_addLabels]
  exact Or.inl h

/--
**The report accounts for every label, and it is true.**

The first part is about every tracker, whatever it answers: a run that is not skipped has recorded
each occurrence of a label in exactly one list, in the order of the decision, and nothing else; a
run that is skipped has recorded nothing. The second is about labels in memory, under any faults: after
a run that could list them and was not skipped, a label of the decision is there exactly if it is
reported as applied or as already present, and no label has gone.
-/
theorem report_accounts_for_labels :
    (∀ {σ : Type} (tracker : Tracker (StateM σ)) (s : σ),
      let report := ((a.apply tracker pr decision table).run s).1
      (report.skippedFor = none →
          Accounts decision.labels report.applied report.alreadyPresent report.failed
            ∧ report.applied.Sublist decision.labels
            ∧ report.alreadyPresent.Sublist decision.labels
            ∧ (report.failed.map ApplyError.label).Sublist decision.labels
            ∧ (report.applied ++ report.alreadyPresent
                ++ report.failed.map ApplyError.label).Perm decision.labels)
        ∧ (report.skippedFor ≠ none →
          report.applied = [] ∧ report.alreadyPresent = [] ∧ report.failed = []))
    ∧ ∀ s : MemoryTracker, s.isAnswered = true →
        let run := (a.apply MemoryTracker.tracker pr decision table).run s
        run.1.skippedFor = none →
          (∀ l ∈ decision.labels,
            l ∈ run.2.labels ↔ l ∈ run.1.applied ∨ l ∈ run.1.alreadyPresent)
            ∧ ∀ l ∈ s.labels, l ∈ run.2.labels := by
  refine ⟨fun {σ} tracker s => ?_, fun s hanswered => ?_⟩
  · intro report
    obtain ⟨course, hfits, hreport⟩ := a.exists_course tracker pr decision table s
    have hreport : report = course.report := hreport
    rw [hreport]
    refine ⟨fun hskip => ?_, fun hskip => ?_⟩
    · have haccounts := Application.accounts_report hfits hskip
      obtain ⟨happlied, hpresent, hfailed⟩ := haccounts.sublists
      exact ⟨haccounts, happlied, hpresent, hfailed, haccounts.perm⟩
    · rw [Application.report_eq_of_skippedFor_ne_none hskip]
      exact ⟨rfl, rfl, rfl⟩
  · intro run hskip
    exact ⟨fun l hl => a.mem_labels_iff_of_isAnswered pr decision table hanswered hskip hl,
      fun l hl => a.mem_labels_run pr decision table hl⟩

/-- A label that the decision holds twice: adding it fails the first time and not the second, so it
is recorded as failed and as applied. -/
theorem report_accounts_for_labels_twice :
    let a : Applier := { skipIfLabeled := true }
    let decision : Decision := ⟨["t-algebra", "t-topology", "t-algebra"], .all⟩
    let s : MemoryTracker :=
      { labels := ["WIP", "t-topology"], listFaults := [some (.api 502 "down")],
        addFaults := [some (.api 422 "no")] }
    let run := (a.apply MemoryTracker.tracker 7 decision .twoTopics).run s
    s.isAnswered = true ∧ run.1.skippedFor = none
      ∧ run.1.applied = ["t-algebra"] ∧ run.1.alreadyPresent = ["t-topology"]
      ∧ run.1.failed = [⟨"t-algebra", 1, .api 422 "no"⟩]
      ∧ Accounts decision.labels run.1.applied run.1.alreadyPresent run.1.failed
      ∧ ("t-algebra" ∈ run.2.labels ↔ "t-algebra" ∈ run.1.applied
          ∨ "t-algebra" ∈ run.1.alreadyPresent)
      ∧ "WIP" ∈ run.2.labels := by
  intro a decision s run
  have hanswered : s.isAnswered = true := by decide
  have hskip : run.1.skippedFor = none := by decide
  obtain ⟨haccounts, hmemory⟩ := report_accounts_for_labels a 7 decision .twoTopics
  obtain ⟨hlabels, hkept⟩ := hmemory s hanswered hskip
  exact ⟨hanswered, hskip, by decide, by decide, by decide,
    ((haccounts MemoryTracker.tracker s).1 hskip).1,
    hlabels "t-algebra" List.mem_cons_self, hkept "WIP" List.mem_cons_self⟩

end Applier

end PathLabels
