import PathLabels.Applying

/-!
# When a pull request is left alone

A pull request is left alone exactly for a label of the table that the decision does not hold, and
only if the applier looks for one.
-/

namespace PathLabels

namespace Applier

/-- The labels for which a decision is not applied. -/
def Foreign (table : RuleTable) (decision : Decision) (l : String) : Prop :=
  table.isKnownLabel l = true ∧ l ∉ decision.labels

theorem mem_foreign {table : RuleTable} {decision : Decision} {view : List String} {l : String} :
    l ∈ view.filter (fun l => table.isKnownLabel l && l ∉ decision.labels)
      ↔ l ∈ view ∧ Foreign table decision l := by
  rw [List.mem_filter, Bool.and_eq_true, decide_eq_true_eq, Foreign]

theorem skipLabel?_eq_none_iff {a : Applier} {table : RuleTable} {decision : Decision}
    {view : List String} :
    a.skipLabel? table decision view = none
      ↔ (a.skipIfLabeled = true → ∀ l ∈ view, ¬Foreign table decision l) := by
  rw [skipLabel?]
  split
  · rename_i hskip
    rw [List.head?_eq_none_iff]
    constructor
    · intro h _ l hl hforeign
      have hmem := Ascending.mem_ofList.mpr (mem_foreign.mpr ⟨hl, hforeign⟩)
      rw [h] at hmem
      cases hmem
    · intro h
      refine List.eq_nil_iff_forall_not_mem.mpr fun l hl => ?_
      obtain ⟨hview, hforeign⟩ := mem_foreign.mp (Ascending.mem_ofList.mp hl)
      exact h hskip l hview hforeign
  · rename_i hskip
    exact ⟨fun _ h => absurd h hskip, fun _ => rfl⟩

/-- Of several such labels the smallest one counts. -/
theorem skipLabel?_eq_some_iff {a : Applier} {table : RuleTable} {decision : Decision}
    {view : List String} {l : String} :
    a.skipLabel? table decision view = some l
      ↔ a.skipIfLabeled = true ∧ (l ∈ view ∧ Foreign table decision l)
        ∧ ∀ l' ∈ view, Foreign table decision l' → l ≤ l' := by
  rw [skipLabel?]
  split
  · rename_i hskip
    simp only [Ascending.head?_ofList_eq_some_iff, mem_foreign, and_imp, hskip, true_and]
  · rename_i hskip
    exact ⟨nofun, fun h => absurd h.1 hskip⟩

/-- Order and repetitions make no difference. -/
theorem skipLabel?_congr (a : Applier) (table : RuleTable) (decision : Decision)
    {view view' : List String} (h : ∀ l, l ∈ view ↔ l ∈ view') :
    a.skipLabel? table decision view = a.skipLabel? table decision view' := by
  refine Option.ext fun l => ?_
  rw [skipLabel?_eq_some_iff, skipLabel?_eq_some_iff]
  simp only [h]

end Applier

/-- A table of two topics. -/
def RuleTable.twoTopics : RuleTable where
  settings := {}
  ignore := []
  rules := [⟨"t-algebra", [.literal "Mathlib/Algebra/" ["Mathlib", "Algebra"]], []⟩,
    ⟨"t-topology", [.literal "Mathlib/Topology/" ["Mathlib", "Topology"]], []⟩]
  labels_nodup := by decide

/-- A label of the decision is no reason to leave a pull request alone, and the other topic is. -/
example :
    ({ skipIfLabeled := true } : Applier).skipLabel? .twoTopics ⟨["t-algebra"], .all⟩
      ["t-algebra", "WIP", "t-topology"] = some "t-topology" := by
  decide

end PathLabels
