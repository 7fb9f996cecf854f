import PathLabels.Proofs.Protocol

/-!
# Turns and the report

What the turns of an application say about its report, and what the report says about the turns:
which labels were asked for, which are there, and what it takes for an application to be complete.
-/

namespace PathLabels

namespace Turn

variable {turns : List Turn} {view : List String} {pr : Nat} {l : String}

theorem label_of_applied? {turn : Turn} (h : turn.applied? = some l) : turn.label = l := by
  cases turn with
  | present label => cases h
  | asked label answers =>
    rw [applied?] at h
    split at h
    · exact Option.some.inj h
    · cases h

/-- A turn without a failure found the label in the view or added it. -/
theorem found_or_added_of_failure?_eq_none {turn : Turn} (h : turn.failure? = none) :
    turn.present? = some turn.label ∨ turn.applied? = some turn.label := by
  cases turn with
  | present label => exact Or.inl rfl
  | asked label answers =>
    refine Or.inr ?_
    rw [failure?] at h
    rw [applied?]
    split at h
    · rfl
    · cases h

theorem mem_labels_of_mem_applied (h : l ∈ (report turns).applied) :
    l ∈ turns.map Turn.label := by
  obtain ⟨turn, hturn, happlied⟩ := List.mem_filterMap.mp h
  exact List.mem_map.mpr ⟨turn, hturn, label_of_applied? happlied⟩

/-- A label in the view is not asked for. -/
theorem add_not_mem_calls (hfits : ∀ turn ∈ turns, turn.Fits view) (h : l ∈ view) :
    TrackerCall.add pr l ∉ turns.flatMap (calls pr) := by
  intro hmem
  obtain ⟨turn, hturn, hcall⟩ := List.mem_flatMap.mp hmem
  have hfit := hfits turn hturn
  cases turn with
  | present label => cases hcall
  | asked label answers =>
    obtain ⟨_, _, heq⟩ := List.mem_map.mp hcall
    have hl : label = l := (TrackerCall.add.inj heq).2
    exact hfit (hl ▸ h)

theorem failure?_eq_none_of_failed (h : (report turns).failed = []) :
    ∀ turn ∈ turns, turn.failure? = none :=
  List.filterMap_eq_nil_iff.mp h

/-- With no failure every label has been found or added. -/
theorem mem_report_of_failed (h : (report turns).failed = []) (hl : l ∈ turns.map Turn.label) :
    l ∈ (report turns).alreadyPresent ∨ l ∈ (report turns).applied := by
  obtain ⟨turn, hturn, rfl⟩ := List.mem_map.mp hl
  rcases found_or_added_of_failure?_eq_none (failure?_eq_none_of_failed h turn hturn) with h' | h'
  · exact Or.inl (List.mem_filterMap.mpr ⟨turn, hturn, h'⟩)
  · exact Or.inr (List.mem_filterMap.mpr ⟨turn, hturn, h'⟩)

theorem mem_view_of_mem_alreadyPresent (hfits : ∀ turn ∈ turns, turn.Fits view)
    (h : l ∈ (report turns).alreadyPresent) : l ∈ view := by
  obtain ⟨turn, hturn, hpresent⟩ := List.mem_filterMap.mp h
  have hfit := hfits turn hturn
  cases turn with
  | present label => exact Option.some.inj hpresent ▸ hfit
  | asked label answers => cases hpresent

theorem outcome_of_failed (h : (report turns).failed = []) (hne : turns.map Turn.label ≠ []) :
    (report turns).outcome = .complete := by
  obtain ⟨l, hl⟩ := List.exists_mem_of_ne_nil _ hne
  -- some label has been found or added
  have hsome : (report turns).nonePresent = false := by
    rw [Report.nonePresent, Bool.and_eq_false_iff, List.isEmpty_eq_false_iff,
      List.isEmpty_eq_false_iff]
    rcases mem_report_of_failed h hl with h' | h'
    · exact Or.inr (List.ne_nil_of_mem h')
    · exact Or.inl (List.ne_nil_of_mem h')
  have hskip : (report turns).skippedFor.isSome = false := rfl
  have hfailures : (report turns).hasFailures = false := by rw [Report.hasFailures, h]; rfl
  rw [Report.outcome, hskip, hfailures, hsome]
  rfl

end Turn

/-- A report that names a label for which nothing was done says nothing else. -/
theorem Application.report_eq_of_skippedFor_ne_none {course : Application}
    (h : course.report.skippedFor ≠ none) :
    course.report = { skippedFor := course.report.skippedFor } := by
  cases course with
  | idle => exact absurd rfl h
  | skipped listing label => rfl
  | carried listing turns => exact absurd rfl h

/-- Where there is nothing to add, or nothing is to be added, nothing fails. -/
theorem Application.failed_eq_nil {a : Applier} {table : RuleTable} {decision : Decision}
    {course : Application} (hfits : course.Fits a table decision)
    (h : decision.labels = [] ∨ course.report.skippedFor ≠ none) : course.report.failed = [] := by
  cases course with
  | idle => rfl
  | skipped listing label => rfl
  | carried listing turns =>
    rcases h with hempty | hskip
    · exact absurd hempty hfits.1
    · exact absurd rfl hskip

/-! ## Outcomes -/

namespace Report

/-- A report with a failed label has the outcome of one, unless it was skipped. -/
theorem outcome_of_failed_ne_nil (report : Report) (hskip : report.skippedFor = none)
    (hfailed : report.failed ≠ []) :
    report.outcome = .incomplete ∨ report.outcome = .failed := by
  have hsome : report.skippedFor.isSome = false := by rw [hskip]; rfl
  have hfailures : report.hasFailures = true := by
    unfold Report.hasFailures
    rw [List.isEmpty_eq_false_iff.mpr hfailed]
    rfl
  unfold Report.outcome
  rw [hsome, hfailures]
  cases report.nonePresent with
  | true => exact Or.inr rfl
  | false => exact Or.inl rfl

theorem outcome_of_failed_eq_nil (report : Report) (hfailed : report.failed = []) :
    report.outcome = .nothing ∨ report.outcome = .skipped ∨ report.outcome = .complete := by
  have hfailures : report.hasFailures = false := by rw [Report.hasFailures, hfailed]; rfl
  unfold Report.outcome
  rw [hfailures]
  cases report.skippedFor.isSome with
  | true => exact Or.inr (Or.inl rfl)
  | false =>
    cases report.nonePresent with
    | true => exact Or.inl rfl
    | false => exact Or.inr (Or.inr rfl)

end Report

end PathLabels
