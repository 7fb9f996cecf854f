import Mathlib.Tactic.SplitIfs
import PathLabels.Proofs.Accounting
import PathLabels.Proofs.StageOrder
import PathLabels.Proofs.Stages

/-!
# The outcome sums up the report

The outcome of a report is worked out from its lists and from the label for which the run stopped.
Whoever only looks at the outcome, or only asks whether something failed, wants to know what became
of the labels of the decision. Not every report with these fields would tell: one that names a label
for which the run stopped and failures besides would count as skipped and as failed. Applying a
decision comes to no such report. It stops with nothing in the lists, or the lists account for the
labels of the decision, and of these reports the outcome says what it should.
-/

namespace PathLabels

/-! ## How much the lists hold -/

namespace Accounts

variable {labels applied present : List String} {failed : List ApplyError}

theorem length_add (h : Accounts labels applied present failed) :
    applied.length + present.length + failed.length = labels.length := by
  rw [← h.perm.length_eq, List.length_append, List.length_append, List.length_map]

/-- Nothing has failed exactly if every occurrence of a label was applied or found. -/
theorem failed_eq_nil_iff (h : Accounts labels applied present failed) :
    failed = [] ↔ (applied ++ present).Perm labels := by
  constructor
  · rintro rfl
    have hperm := h.perm
    rwa [List.map_nil, List.append_nil] at hperm
  · intro hperm
    have hlength := h.length_add
    have hlength' := hperm.length_eq
    rw [List.length_append] at hlength'
    exact List.length_eq_zero_iff.mp (by omega)

/-- Nothing was applied or found exactly if every occurrence of a label has failed. -/
theorem map_label_failed_eq_iff (h : Accounts labels applied present failed) :
    failed.map ApplyError.label = labels ↔ applied = [] ∧ present = [] := by
  have hlength := h.length_add
  constructor
  · intro hfailed
    have hlength' := congrArg List.length hfailed
    rw [List.length_map] at hlength'
    exact ⟨List.length_eq_zero_iff.mp (by omega), List.length_eq_zero_iff.mp (by omega)⟩
  · rintro ⟨rfl, rfl⟩
    obtain ⟨-, -, hfailed⟩ := h.sublists
    refine hfailed.eq_of_length ?_
    rw [List.length_map]
    simpa using hlength

theorem labels_eq_nil_iff (h : Accounts labels applied present failed) :
    labels = [] ↔ (applied = [] ∧ present = []) ∧ failed = [] := by
  have hlength := h.length_add
  rw [← List.length_eq_zero_iff, ← List.length_eq_zero_iff, ← List.length_eq_zero_iff,
    ← List.length_eq_zero_iff]
  omega

end Accounts

/-! ## What an outcome says -/

/-- The reports that applying a decision comes to. -/
inductive Report.IsOn (decision : Decision) : Report → Prop where
  /-- The run stopped for a label, with nothing in the lists. -/
  | skipped {label : String} : decision.labels ≠ [] → IsOn decision { skippedFor := some label }
  /-- The lists account for the labels. -/
  | accounted {applied present : List String} {failed : List ApplyError} :
      Accounts decision.labels applied present failed →
      IsOn decision { applied, alreadyPresent := present, failed }

/-- The outcome of a report says what became of the labels of the decision. -/
structure Report.SumsUp (report : Report) (decision : Decision) : Prop where
  nothing_iff : report.outcome = .nothing ↔ decision.labels = []
  skipped_iff : report.outcome = .skipped ↔ report.skippedFor ≠ none
  /-- Each label was applied or found as often as the decision holds it. -/
  complete_iff : report.outcome = .complete
    ↔ decision.labels ≠ [] ∧ report.skippedFor = none
      ∧ (report.applied ++ report.alreadyPresent).Perm decision.labels
  failed_iff : report.outcome = .failed
    ↔ decision.labels ≠ [] ∧ report.failed.map ApplyError.label = decision.labels
  incomplete_iff : report.outcome = .incomplete
    ↔ report.failed ≠ [] ∧ report.failed.map ApplyError.label ≠ decision.labels
  hasFailures_iff : report.hasFailures = true
    ↔ report.outcome = .incomplete ∨ report.outcome = .failed

namespace Report

theorem outcome_of_lists (applied present : List String) (failed : List ApplyError) :
    ({ applied, alreadyPresent := present, failed } : Report).outcome
      = if failed = [] then if applied = [] ∧ present = [] then .nothing else .complete
        else if applied = [] ∧ present = [] then .failed else .incomplete := by
  cases failed <;> cases applied <;> cases present <;> rfl

/-- **The outcome of such a report sums it up.** -/
theorem IsOn.sumsUp {report : Report} {decision : Decision} (h : report.IsOn decision) :
    report.SumsUp decision := by
  cases h with
  | @skipped label hne =>
    have houtcome : ({ skippedFor := some label } : Report).outcome = .skipped := rfl
    exact {
      nothing_iff := by simp [houtcome, hne]
      skipped_iff := by simp [houtcome]
      complete_iff := by simp [houtcome]
      failed_iff := by simp [houtcome, hne.symm]
      incomplete_iff := by simp [houtcome]
      hasFailures_iff := by simp [houtcome, hasFailures] }
  | @accounted applied present failed haccounts =>
    -- each outcome is told by two questions: has anything failed, and is anything there
    have houtcome := outcome_of_lists applied present failed
    have hlabels := haccounts.labels_eq_nil_iff
    have hfound := haccounts.failed_eq_nil_iff
    have hfailed := haccounts.map_label_failed_eq_iff
    exact {
      nothing_iff := by
        rw [houtcome, hlabels]
        split_ifs with hnone hpresent hpresent <;> simp [hnone, hpresent]
      skipped_iff := by
        rw [houtcome]
        split_ifs <;> simp
      complete_iff := by
        rw [houtcome, ← hfound, Ne, hlabels]
        split_ifs with hnone hpresent hpresent <;> simp [hnone, hpresent]
      failed_iff := by
        rw [houtcome, hfailed, Ne, hlabels]
        split_ifs with hnone hpresent hpresent <;> simp [hnone, hpresent]
      incomplete_iff := by
        rw [houtcome, Ne, Ne, hfailed]
        split_ifs with hnone hpresent hpresent <;> simp [hnone, hpresent]
      hasFailures_iff := by
        rw [houtcome, hasFailures]
        split_ifs with hnone hpresent hpresent <;> simp [hnone] }

end Report

/-- What a summary says of its report, and whether a label could not be added. -/
structure Summary.SumsUp (summary : Summary) : Prop where
  report : ∀ report, summary.report = some report → report.SumsUp summary.decision
  hasFailures_iff : summary.hasFailures = true
    ↔ ∃ report, summary.report = some report
      ∧ (report.outcome = .incomplete ∨ report.outcome = .failed)

theorem Summary.sumsUp {summary : Summary}
    (h : ∀ report, summary.report = some report → report.IsOn summary.decision) :
    summary.SumsUp where
  report report hreport := (h report hreport).sumsUp
  hasFailures_iff := by
    rw [hasFailures]
    cases hreport : summary.report with
    | none => simp
    | some report => simpa using (h report hreport).sumsUp.hasFailures_iff

/-! ## The reports of runs -/

theorem Application.isOn_report {a : Applier} {table : RuleTable} {decision : Decision}
    {course : Application} (hfits : course.Fits a table decision) :
    course.report.IsOn decision := by
  cases course with
  | idle =>
    have hlabels : decision.labels = [] := hfits
    exact .accounted (hlabels ▸ .nil)
  | skipped listing label => exact .skipped hfits.1
  | carried listing turns =>
    have haccounts := Turn.accounts_report turns
    rw [hfits.2.2.1] at haccounts
    exact .accounted haccounts

section

variable {σ : Type}

theorem Applier.isOn_apply (a : Applier) (tracker : Tracker (StateM σ)) (pr : Nat)
    (decision : Decision) (table : RuleTable) (s : σ) :
    ((a.apply tracker pr decision table).run s).1.IsOn decision := by
  obtain ⟨course, hfits, hreport⟩ := a.exists_course tracker pr decision table s
  rw [hreport]
  exact Application.isOn_report hfits

/-- The summary of a run has the report of applying its own decision, or none. -/
theorem Pipeline.isOn_of_run {p : Pipeline (StateM σ)} {pr : Nat}
    {tracker? : Option (Tracker (StateM σ))} {s : σ} {summary : Summary}
    (h : ((p.run pr tracker?).run s).1.1 = .ok summary) (report : Report)
    (hreport : summary.report = some report) : report.IsOn summary.decision := by
  cases hfetch : (p.source pr).run (p.told p.stage .fetching s) with
  | mk fetched s₁ =>
    cases fetched with
    | error e =>
      rw [p.run_of_error tracker? hfetch] at h
      cases h
    | ok changes =>
      cases tracker? with
      | none =>
        rw [p.run_of_forecast hfetch] at h
        cases h
        cases hreport
      | some tracker =>
        rw [p.run_of_applied tracker hfetch] at h
        cases h
        cases hreport
        exact p.applier.isOn_apply tracker pr _ p.table _

end

/--
**The outcome sums up the report**, whatever the tracker does.

There was nothing to do exactly if the decision is empty, and the run was skipped exactly if a label
is named for it. It is complete if each occurrence of a label was applied or found, it has failed if
each of them failed, and it is incomplete if some of them did; and something has failed exactly in
the last two cases. The other parts are about the summaries of runs: that of a run of any pipeline,
and that of labelling a pull request, where the tracker is a client.
-/
theorem outcome_sums_up_report :
    (∀ {σ : Type} (a : Applier) (tracker : Tracker (StateM σ)) (pr : Nat) (decision : Decision)
        (table : RuleTable) (s : σ),
      ((a.apply tracker pr decision table).run s).1.SumsUp decision)
    ∧ (∀ {σ : Type} (p : Pipeline (StateM σ)) (pr : Nat) (tracker? : Option (Tracker (StateM σ)))
        (s : σ) (summary : Summary),
      ((p.run pr tracker?).run s).1.1 = .ok summary → summary.SumsUp)
    ∧ ∀ {σ : Type} (host : Host (StateM σ)) (config : Config) (s : σ) (summary : Summary),
      ((config.label host).run s).1 = .ok summary → summary.SumsUp := by
  refine ⟨fun a tracker pr decision table s => (a.isOn_apply tracker pr decision table s).sumsUp,
    fun p pr tracker? s summary h => Summary.sumsUp (Pipeline.isOn_of_run h),
    fun host config s summary h => Summary.sumsUp fun report hreport => ?_⟩
  have hlabelling := config.labelling host s
  rw [h] at hlabelling
  obtain ⟨table, course, hfits, rfl⟩ := hlabelling.exists_course hreport
  exact Application.isOn_report hfits

/-- A label that is refused makes a run fail over labels in memory, and an unanswered server makes a
labelling fail. -/
theorem outcome_sums_up_report_refused :
    let changes := ChangeSet.ofList ["Mathlib/Algebra/Group.lean"]
    let p := Pipeline.ofTable (fun _ => pure (.ok changes)) .twoTopics
    let s : MemoryTracker := { rejected := [("t-algebra", .api 422 "no")] }
    let ran := ((p.run 7 (some MemoryTracker.tracker)).run s).1.1
    let labelled := (((Config.withToken "tok").label World.host).run (Cli.oneRule [] [])).1
    (∃ summary, ran = .ok summary ∧ summary.hasFailures = true ∧ summary.SumsUp)
      ∧ ∃ summary, labelled = .ok summary ∧ summary.hasFailures = true ∧ summary.SumsUp := by
  intro changes p s ran labelled
  obtain ⟨-, hrun, hlabel⟩ := outcome_sums_up_report
  have hran : ran.toOption.map Summary.hasFailures = some true := by decide +kernel
  have hlabelled : labelled.toOption.map Summary.hasFailures = some true := by decide +kernel
  obtain ⟨summary, hsummary, hfailures⟩ := Option.map_eq_some_iff.mp hran
  obtain ⟨summary', hsummary', hfailures'⟩ := Option.map_eq_some_iff.mp hlabelled
  have hok : ran = .ok summary := Cli.eq_ok_of_toOption hsummary
  have hok' : labelled = .ok summary' := Cli.eq_ok_of_toOption hsummary'
  exact ⟨⟨summary, hok, hfailures, hrun p 7 _ s summary hok⟩,
    ⟨summary', hok', hfailures', hlabel World.host _ _ summary' hok'⟩⟩

end PathLabels
