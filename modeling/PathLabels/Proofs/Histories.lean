import Mathlib.Data.Finset.Card
import PathLabels.Pipeline
import PathLabels.Proofs.Additive
import PathLabels.Proofs.Skip
import PathLabels.Proofs.Turns

/-!
# Labels of different decisions do not pile up

A pull request is labelled again and again while its changes come and go, so the decision is another
one each time. A run may fail half-way, and people edit the labels in between. Still the table labels
on the pull request are always labels of *one* decision: a run that finds a table label which is not
its own leaves the pull request alone, and a run that finds none adds its own labels only.

With that the cap on a decision is a cap on the pull request.
-/

namespace PathLabels

/-- What has become of one pull request so far. -/
structure History where
  tracker : MemoryTracker
  /-- The pipeline through which all runs are made. -/
  pipeline : Pipeline (StateM MemoryTracker)
  /-- The decisions of the runs made so far. -/
  decisions : List Decision := []

namespace History

/-- The beginning: a pipeline for the table, and no run yet. -/
def start (table : RuleTable) (retryDelay : Duration) (tracker : MemoryTracker) : History where
  tracker := tracker
  pipeline :=
    { Pipeline.ofTable (fun _ => pure (.ok .empty)) table with
      applier := { retryDelay, skipIfLabeled := table.settings.skipIfLabeled } }

/-- The table labels on the pull request. -/
def tableLabels (table : RuleTable) (h : History) : List String :=
  h.tracker.labels.filter table.isKnownLabel

/-- The decision of a run, if the changes are learned. -/
def decisionOf : Except FetchError Summary → List Decision
  | .ok summary => [summary.decision]
  | .error _ => []

/-- The same labels, with the faults of the coming run laid down. -/
def facing (h : History) (faults : MemoryTracker.Faults) : MemoryTracker :=
  h.tracker.withFaults faults

/-- One more run: `fetched` is what the change source gives. -/
def run (h : History) (pr : Nat) (fetched : Except FetchError ChangeSet)
    (faults : MemoryTracker.Faults) : History :=
  let ((result, pipeline), tracker) :=
    ({ h.pipeline with source := fun _ => pure fetched }.run pr
      (some MemoryTracker.tracker)).run (h.facing faults)
  { tracker, pipeline, decisions := h.decisions ++ decisionOf result }

def withLabels (h : History) (labels : List String) : History :=
  { h with tracker := { h.tracker with labels } }

/-- What can happen next. -/
inductive Step (table : RuleTable) : History → History → Prop where
  /-- A run. If it lists the labels at all, the listing is answered in the end. -/
  | run {h : History} (pr : Nat) (fetched : Except FetchError ChangeSet)
      (faults : MemoryTracker.Faults)
      (answered : ∀ changes, fetched = .ok changes → (changes.decision table).labels ≠ [] →
        (h.facing faults).isAnswered = true) :
      Step table h (h.run pr fetched faults)
  /-- People remove labels, any number of them. -/
  | remove {h : History} (kept : List String) (sublist : kept.Sublist h.tracker.labels) :
      Step table h (h.withLabels kept)
  /-- People add a label that is not one of the table's. -/
  | put {h : History} (label : String) (foreign : table.isKnownLabel label = false) :
      Step table h (h.withLabels (MemoryTracker.addLabel h.tracker.labels label))

/-- What can have become of a pull request that carried no table label at first. -/
inductive Reachable (table : RuleTable) : History → Prop where
  | start {retryDelay : Duration} {tracker : MemoryTracker}
      (bare : ∀ l ∈ tracker.labels, table.isKnownLabel l = false) :
      Reachable table (start table retryDelay tracker)
  | tail {h h' : History} : Reachable table h → Step table h h' → Reachable table h'

/-! ## One run -/

variable {table : RuleTable} {h h' : History}

/-- A run that does not learn the changes leaves the labels as they are. -/
theorem run_error (hsilent : h.pipeline.IsSilent) (pr : Nat) (e : FetchError)
    (faults : MemoryTracker.Faults) :
    h.run pr (.error e) faults
      = { tracker := h.facing faults
          pipeline := { h.pipeline with source := fun _ => pure (.error e), stage := .failed }
          decisions := h.decisions ++ [] } := by
  have hsilent' : { h.pipeline with source := fun _ => pure (.error e) }.IsSilent := hsilent
  rw [run, Pipeline.run_of_isSilent hsilent']
  rfl

/-- Any other run applies the decision of its changes. -/
theorem run_ok (hsilent : h.pipeline.IsSilent) (pr : Nat) (changes : ChangeSet)
    (faults : MemoryTracker.Faults) :
    h.run pr (.ok changes) faults
      = { tracker := (h.pipeline.applier.recordedRun MemoryTracker.tracker pr
            (changes.decision h.pipeline.table) h.pipeline.table (h.facing faults)).2
          pipeline := { h.pipeline with source := fun _ => pure (.ok changes), stage := .done }
          decisions := h.decisions ++ [changes.decision h.pipeline.table] } := by
  have hrun := h.pipeline.applier.run_eq_recordedRun MemoryTracker.tracker pr
    (changes.decision h.pipeline.table) h.pipeline.table (h.facing faults)
  rw [show (h.pipeline.applier.recordedRun MemoryTracker.tracker pr
    (changes.decision h.pipeline.table) h.pipeline.table (h.facing faults)).2 = _ from
      (congrArg Prod.snd hrun).symm]
  have hsilent' : { h.pipeline with source := fun _ => pure (.ok changes) }.IsSilent := hsilent
  rw [run, Pipeline.run_of_isSilent hsilent']
  rfl

/--
**A run leaves the labels alone, or the table labels are all its own.**

If the listing is answered, the run saw all labels that were there: had one of them been a table
label outside the decision, the run would have been skipped.
-/
theorem labels_recordedRun (table : RuleTable) {a : Applier} (hskip : a.skipIfLabeled = true)
    (pr : Nat) (decision : Decision) (s : MemoryTracker)
    (hanswered : decision.labels ≠ [] → s.isAnswered = true) :
    (a.recordedRun MemoryTracker.tracker pr decision table s).2.labels = s.labels
      ∨ ∀ l ∈ (a.recordedRun MemoryTracker.tracker pr decision table s).2.labels,
          table.isKnownLabel l = true → l ∈ decision.labels := by
  obtain ⟨course, hfits, hreads, _, hlabels⟩ := a.recordedRun_memory pr decision table s
  rw [hlabels]
  cases course with
  | idle => exact Or.inl rfl
  | skipped listing label => exact Or.inl rfl
  | carried listing turns =>
    obtain ⟨hne, hnone, hturns, _⟩ := hfits
    have hview : listing.view = s.labels := by
      rw [show listing.view = _ from hreads, MemoryTracker.view, if_pos (hanswered hne)]
    rw [hview] at hnone
    refine Or.inr fun l hl hknown => ?_
    rcases MemoryTracker.mem_addLabels.mp hl with h | h
    · -- the label was there and has been read, and the run was not skipped for it
      by_contra hforeign
      exact Applier.skipLabel?_eq_none_iff.mp hnone hskip l h ⟨hknown, hforeign⟩
    · exact hturns ▸ Turn.mem_labels_of_mem_applied h

/-! ## The invariant -/

/-- All table labels on the pull request belong to one decision made so far, if there are any. -/
def OneDecision (table : RuleTable) (h : History) : Prop :=
  h.tableLabels table = [] ∨ ∃ d ∈ h.decisions, ∀ l ∈ h.tableLabels table, l ∈ d.labels

/-- What holds at any time. -/
structure Inv (table : RuleTable) (h : History) : Prop where
  /-- The pipeline is still the one for the table. -/
  table_eq : h.pipeline.table = table
  skip_eq : h.pipeline.applier.skipIfLabeled = table.settings.skipIfLabeled
  silent : h.pipeline.IsSilent
  /-- Every decision was made for the table. -/
  decided : ∀ d ∈ h.decisions, ∃ changes : ChangeSet, d = changes.decision table
  one : OneDecision table h

theorem mem_tableLabels {l : String} :
    l ∈ h.tableLabels table ↔ l ∈ h.tracker.labels ∧ table.isKnownLabel l = true :=
  List.mem_filter

/-- Fewer table labels and more decisions keep the table labels within one decision. -/
theorem OneDecision.mono (h₀ : OneDecision table h)
    (hlabels : ∀ l ∈ h'.tableLabels table, l ∈ h.tableLabels table)
    (hdecisions : ∀ d ∈ h.decisions, d ∈ h'.decisions) : OneDecision table h' := by
  rcases h₀ with hnone | ⟨d, hd, hall⟩
  · refine Or.inl (List.eq_nil_iff_forall_not_mem.mpr fun l hl => ?_)
    have hmem := hlabels l hl
    rw [hnone] at hmem
    cases hmem
  · exact Or.inr ⟨d, hdecisions d hd, fun l hl => hall l (hlabels l hl)⟩

theorem inv_start {retryDelay : Duration} {tracker : MemoryTracker}
    (bare : ∀ l ∈ tracker.labels, table.isKnownLabel l = false) :
    Inv table (start table retryDelay tracker) where
  table_eq := rfl
  skip_eq := rfl
  silent := fun _ _ => rfl
  decided := by intro d hd; cases hd
  one := by
    refine Or.inl (List.filter_eq_nil_iff.mpr fun l hl => ?_)
    rw [bare l hl]
    exact Bool.false_ne_true

theorem inv_withLabels (hi : Inv table h) {labels : List String}
    (hlabels : ∀ l ∈ labels, table.isKnownLabel l = true → l ∈ h.tracker.labels) :
    Inv table (h.withLabels labels) where
  table_eq := hi.table_eq
  skip_eq := hi.skip_eq
  silent := hi.silent
  decided := hi.decided
  one := by
    refine hi.one.mono (fun l hl => ?_) fun d hd => hd
    obtain ⟨hmem, hknown⟩ := mem_tableLabels.mp hl
    exact mem_tableLabels.mpr ⟨hlabels l hmem hknown, hknown⟩

theorem inv_run_error (hi : Inv table h) (pr : Nat) (e : FetchError)
    (faults : MemoryTracker.Faults) : Inv table (h.run pr (.error e) faults) := by
  rw [run_error hi.silent]
  refine ⟨hi.table_eq, hi.skip_eq, hi.silent, ?_, ?_⟩
  · rw [List.append_nil]
    exact hi.decided
  · exact hi.one.mono (fun l hl => hl) fun d hd => List.mem_append_left _ hd

theorem inv_run_ok (hskip : table.settings.skipIfLabeled = true) (hi : Inv table h) (pr : Nat)
    (changes : ChangeSet) (faults : MemoryTracker.Faults)
    (hanswered : (changes.decision table).labels ≠ [] → (h.facing faults).isAnswered = true) :
    Inv table (h.run pr (.ok changes) faults) := by
  rw [run_ok hi.silent, hi.table_eq]
  refine ⟨hi.table_eq, hi.skip_eq, hi.silent, ?_, ?_⟩
  · intro d hd
    rcases List.mem_append.mp hd with hd | hd
    · exact hi.decided d hd
    · exact ⟨changes, List.mem_singleton.mp hd⟩
  · rcases labels_recordedRun table (hi.skip_eq.trans hskip) pr
      (changes.decision table) (h.facing faults) hanswered with hsame | hown
    · -- nothing has changed, so the decision of before will do
      refine hi.one.mono (fun l hl => ?_) fun d hd => List.mem_append_left _ hd
      obtain ⟨hmem, hknown⟩ := mem_tableLabels.mp hl
      rw [hsame] at hmem
      exact mem_tableLabels.mpr ⟨hmem, hknown⟩
    · refine Or.inr ⟨changes.decision table, List.mem_append_right _ List.mem_cons_self, ?_⟩
      intro l hl
      obtain ⟨hmem, hknown⟩ := mem_tableLabels.mp hl
      exact hown l hmem hknown

/-- **The invariant is preserved by every step.** -/
theorem inv_step (hskip : table.settings.skipIfLabeled = true) (hi : Inv table h)
    (hs : Step table h h') : Inv table h' := by
  cases hs with
  | run pr fetched faults answered =>
    cases fetched with
    | error e => exact inv_run_error hi pr e faults
    | ok changes => exact inv_run_ok hskip hi pr changes faults (answered changes rfl)
  | remove kept sublist =>
    exact inv_withLabels hi fun l hl _ => sublist.subset hl
  | put label foreign =>
    refine inv_withLabels hi fun l hl hknown => ?_
    rcases MemoryTracker.mem_addLabel.mp hl with hl | rfl
    · exact hl
    · rw [foreign] at hknown
      cases hknown

theorem inv_reachable (hskip : table.settings.skipIfLabeled = true) (hr : Reachable table h) :
    Inv table h := by
  induction hr with
  | start bare => exact inv_start bare
  | tail _ hs ih => exact inv_step hskip ih hs

/-! ## The cap -/

theorem length_decision_le {changes : ChangeSet} {k : Nat}
    (hcap : table.settings.cap = some k) : (changes.decision table).labels.length ≤ k := by
  rw [ChangeSet.decision, MatchResult.decide]
  dsimp only
  rw [hcap, List.length_map, Decision.takeCap]
  exact List.length_take_le _ _

/--
**One decision at a time, and never more than the cap.**

Whatever runs have been made and whatever people have done to the labels in between, the table
labels on the pull request are within the decision of one run made so far, and there are at most as
many distinct ones as a decision may hold.
-/
theorem tableLabels_within_cap {k : Nat} (hskip : table.settings.skipIfLabeled = true)
    (hcap : table.settings.maxLabels = k) (hpos : 1 ≤ k) (hr : Reachable table h) :
    (h.tableLabels table = [] ∨ ∃ d ∈ h.decisions, ∀ l ∈ h.tableLabels table, l ∈ d.labels)
      ∧ (h.tableLabels table).toFinset.card ≤ k := by
  have hi := inv_reachable hskip hr
  refine ⟨hi.one, ?_⟩
  rcases hi.one with hnone | ⟨d, hd, hall⟩
  · rw [hnone]
    exact Nat.zero_le k
  · obtain ⟨changes, rfl⟩ := hi.decided d hd
    have hsub : (h.tableLabels table).toFinset ⊆ (changes.decision table).labels.toFinset := by
      intro l hl
      exact List.mem_toFinset.mpr (hall l (List.mem_toFinset.mp hl))
    have hlen : (changes.decision table).labels.length ≤ k := by
      refine length_decision_le ?_
      rw [Settings.cap, hcap, if_pos (Nat.lt_of_succ_le hpos)]
    calc (h.tableLabels table).toFinset.card
        ≤ (changes.decision table).labels.toFinset.card := Finset.card_le_card hsub
      _ ≤ (changes.decision table).labels.length := List.toFinset_card_le _
      _ ≤ k := hlen

/-- A run that adds a label at the second try, one that leaves the pull request alone for it, and one
after people have removed the label. -/
theorem tableLabels_within_cap_edited :
    let topology := ChangeSet.ofList ["Mathlib/Topology/Basic.lean"]
    let algebra := ChangeSet.ofList ["Mathlib/Algebra/Ring.lean"]
    let first := (start .twoTopics .zero { labels := ["WIP"] }).run 7 (.ok topology)
      { add := [some (.api 502 "down")] }
    let second := first.run 7 (.ok algebra) {}
    let third := (second.withLabels ["WIP"]).run 7 (.ok algebra) {}
    first.tableLabels .twoTopics = ["t-topology"]
      ∧ second.tableLabels .twoTopics = ["t-topology"]
      ∧ third.tableLabels .twoTopics = ["t-algebra"]
      ∧ Reachable .twoTopics third
      ∧ (third.tableLabels .twoTopics).toFinset.card ≤ 1 := by
  intro topology algebra first second third
  have hfirst : Reachable .twoTopics first :=
    .tail (.start (by decide)) (.run 7 (.ok topology) _ fun _ _ _ => rfl)
  have hsecond : Reachable .twoTopics second :=
    .tail hfirst (.run 7 (.ok algebra) _ fun _ _ _ => rfl)
  have hthird : Reachable .twoTopics third :=
    .tail (.tail hsecond (.remove ["WIP"] (by decide +kernel)))
      (.run 7 (.ok algebra) _ fun _ _ _ => rfl)
  exact ⟨by decide +kernel, by decide +kernel, by decide +kernel, hthird,
    (tableLabels_within_cap rfl rfl (Nat.le_refl 1) hthird).2⟩

end History

end PathLabels
