import Mathlib.Data.List.Forall2
import PathLabels.RuleTable.Basic

/-!
# What compiling makes of a written table

Compiling goes through a written table from its beginning and stops at the first fault. If there is
none, each written rule has become one compiled rule, in its place, with the patterns that its texts
stand for.
-/

namespace PathLabels

/-! ## Reading lists -/

section Traversal

variable {ε α β : Type} {f : α → Except ε β} {as : List α} {bs : List β} {R : α → β → Prop}

/-- Two steps succeed exactly if both do, one after the other. -/
theorem bind_eq_ok_iff {x : Except ε α} {g : α → Except ε β} {b : β} :
    x >>= g = .ok b ↔ ∃ a, x = .ok a ∧ g a = .ok b := by
  cases x with
  | error e => exact ⟨nofun, fun ⟨_, h, _⟩ => nomatch h⟩
  | ok a => exact ⟨fun h => ⟨a, rfl, h⟩, fun ⟨_, h, hb⟩ => Except.ok.inj h ▸ hb⟩

/-- A list is read item by item. -/
theorem forall₂_of_mapM_ok (h : as.mapM f = .ok bs) :
    List.Forall₂ (fun a b => f a = .ok b) as bs := by
  induction as generalizing bs with
  | nil => cases h; exact .nil
  | cons a as ih =>
    rw [List.mapM_cons] at h
    obtain ⟨b, hb, hrest⟩ := bind_eq_ok_iff.mp h
    obtain ⟨bs', hbs, heq⟩ := bind_eq_ok_iff.mp hrest
    cases heq
    exact .cons hb (ih hbs)

theorem exists_right_of_mem {a : α} (h : List.Forall₂ R as bs) (ha : a ∈ as) :
    ∃ b ∈ bs, R a b := by
  induction h with
  | nil => cases ha
  | cons hr _ ih =>
    rcases List.mem_cons.mp ha with rfl | ha
    · exact ⟨_, List.mem_cons_self, hr⟩
    · obtain ⟨b, hb, hr⟩ := ih ha
      exact ⟨b, List.mem_cons_of_mem _ hb, hr⟩

theorem exists_left_of_mem {b : β} (h : List.Forall₂ R as bs) (hb : b ∈ bs) :
    ∃ a ∈ as, R a b :=
  exists_right_of_mem (R := fun b a => R a b) (List.Forall₂.flip h) hb

theorem mem_iff_of_mapM_ok {b : β} (h : as.mapM f = .ok bs) :
    b ∈ bs ↔ ∃ a ∈ as, f a = .ok b := by
  have hread := forall₂_of_mapM_ok h
  constructor
  · exact exists_left_of_mem hread
  · rintro ⟨a, ha, hb⟩
    obtain ⟨b', hb', heq⟩ := exists_right_of_mem hread ha
    rw [hb] at heq
    cases heq
    exact hb'

end Traversal

/-! ## Rules and tables -/

/-- A rule is what compiling makes of a written one. -/
structure LabelRule.CompiledFrom (rule : LabelRule) (raw : RawRule) : Prop where
  label : rule.label = Text.trim raw.label
  dirs : RuleTable.compilePatterns raw.dirs = .ok rule.dirs
  exclusions : RuleTable.compilePatterns raw.exclusions = .ok rule.exclusions

namespace RuleTable

theorem parse_of_compilePattern {text : String} {p : PathPattern}
    (h : compilePattern text = .ok p) : PathPattern.parse text = .ok p := by
  unfold compilePattern at h
  cases hparse : PathPattern.parse text with
  | error fault => rw [hparse] at h; cases h
  | ok q => rw [hparse] at h; cases h; rfl

theorem compiledFrom_of_compileRule {seen : List String} {index : Nat} {raw : RawRule}
    {rule : LabelRule} (h : compileRule seen index raw = .ok rule) : rule.CompiledFrom raw := by
  have hlabel := (label_of_compileRule h).1
  -- of the four ways on, only the last one makes a rule
  rw [compileRule] at h
  split at h
  · cases h
  split at h
  · cases h
  split at h
  · cases h
  rw [compileOwned] at h
  obtain ⟨dirs, hdirs, hrest⟩ := bind_eq_ok_iff.mp h
  obtain ⟨exclusions, hexclusions, heq⟩ := bind_eq_ok_iff.mp hrest
  cases heq
  exact ⟨hlabel, hdirs, hexclusions⟩

theorem compiledFrom_of_compileRules {seen : List String} {index : Nat} {raws : List RawRule}
    {rules : List LabelRule} (h : compileRules seen index raws = .ok rules) :
    List.Forall₂ (fun raw rule => rule.CompiledFrom raw) raws rules := by
  induction raws generalizing seen index rules with
  | nil => cases h; exact .nil
  | cons raw raws ih =>
    rw [compileRules] at h
    split at h
    · cases h
    · rename_i rule hrule
      split at h
      · cases h
      · rename_i rules' hrules
        cases h
        exact .cons (compiledFrom_of_compileRule hrule) (ih hrules)

/-- A table is what compiling makes of a written one. -/
structure CompiledFrom (table : RuleTable) (raw : RawTable) : Prop where
  settings : table.settings = raw.settings
  ignore : compilePatterns raw.settings.ignore = .ok table.ignore
  rules : List.Forall₂ (fun raw rule => rule.CompiledFrom raw) raw.rules table.rules

theorem compiledFrom_of_compile {raw : RawTable} {table : RuleTable}
    (h : compile raw = .ok table) : table.CompiledFrom raw := by
  rw [compile] at h
  split at h
  · cases h
  · rename_i ignore hignore
    split at h
    · cases h
    · rename_i rules hrules
      cases h
      exact ⟨rfl, hignore, compiledFrom_of_compileRules hrules⟩

end RuleTable

end PathLabels
