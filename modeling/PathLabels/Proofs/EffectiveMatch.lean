import PathLabels.Proofs.MatchRelation

/-!
# Effective matches

A match of a pattern counts only if it is *effective*: the table does not ignore the file, and no
exclusion of the pattern's own rule matches it. An exclusion takes away all matches of its rule on
that file, but none on other files and none of other rules. What matching finds for a rule is its
effective matches: the files that have one, and the greatest specificity among them.
-/

namespace PathLabels

/-- A pattern of a rule matches a changed file, and neither the table nor the rule forbids it. -/
structure EffectiveMatch (table : RuleTable) (changes : ChangeSet) (path : String)
    (rule : LabelRule) (pattern : PathPattern) : Prop where
  changed : path ∈ changes.paths
  kept : table.isIgnored path = false
  rule_mem : rule ∈ table.rules
  pattern_mem : pattern ∈ rule.dirs
  isMatch : pattern.isMatch path = true
  allowed : rule.isExcluded path = false

/-- The files on which a rule has an effective match. -/
def effectiveFiles (table : RuleTable) (changes : ChangeSet) (rule : LabelRule) : List String :=
  changes.paths.filter fun path =>
    !table.isIgnored path && !rule.isExcluded path && rule.dirs.any fun p => p.isMatch path

variable {table : RuleTable} {changes : ChangeSet} {rule : LabelRule} {path : String}
  {pattern : PathPattern} {found : LabelMatch}

theorem mem_effectiveFiles (hrule : rule ∈ table.rules) :
    path ∈ effectiveFiles table changes rule
      ↔ ∃ pattern, EffectiveMatch table changes path rule pattern := by
  rw [effectiveFiles, List.mem_filter]
  simp only [Bool.and_eq_true, Bool.not_eq_true', List.any_eq_true]
  constructor
  · rintro ⟨hpath, ⟨hkept, hallowed⟩, pattern, hpattern, hmatch⟩
    exact ⟨pattern, hpath, hkept, hrule, hpattern, hmatch, hallowed⟩
  · rintro ⟨pattern, h⟩
    exact ⟨h.changed, ⟨h.kept, h.allowed⟩, pattern, h.pattern_mem, h.isMatch⟩

theorem effectiveFiles_eq_filter_counts (table : RuleTable) (changes : ChangeSet)
    (rule : LabelRule) :
    effectiveFiles table changes rule = changes.paths.filter (rule.counts table) := by
  refine List.filter_congr fun path _ => ?_
  rw [LabelRule.counts, rule.isSome_bestMatch, Bool.and_assoc]

/-- An effective match is no better than the best match of its rule on the file. -/
theorem EffectiveMatch.exists_bestMatch (h : EffectiveMatch table changes path rule pattern) :
    ∃ s, rule.bestMatch path = some s ∧ pattern.specificity ≤ s := by
  have hsome : (rule.bestMatch path).isSome = true := by
    rw [rule.isSome_bestMatch, h.allowed]
    exact List.any_eq_true.mpr ⟨pattern, h.pattern_mem, h.isMatch⟩
  obtain ⟨s, hs⟩ := Option.isSome_iff_exists.mp hsome
  exact ⟨s, hs, (LabelRule.bestMatch_eq_some_iff.mp hs).2.2 pattern h.pattern_mem h.isMatch⟩

/-- What a rule finds: its effective files and the greatest specificity of its matches on them. -/
structure Found (table : RuleTable) (changes : ChangeSet) (rule : LabelRule)
    (found : LabelMatch) : Prop where
  files : found.files = effectiveFiles table changes rule
  reached : ∃ path pattern, EffectiveMatch table changes path rule pattern
    ∧ pattern.specificity = found.specificity
  greatest : ∀ path pattern, EffectiveMatch table changes path rule pattern →
    pattern.specificity ≤ found.specificity

theorem found_of_matchIn (hrule : rule ∈ table.rules)
    (h : rule.matchIn table changes.paths = some found) : Found table changes rule found := by
  rw [LabelRule.matchIn, ← effectiveFiles_eq_filter_counts, Option.map_eq_some_iff] at h
  obtain ⟨s, hbest, rfl⟩ := h
  obtain ⟨hmem, hgreatest⟩ := Specificity.best?_eq_some_iff.mp hbest
  refine ⟨rfl, ?_, fun path pattern heff => ?_⟩
  · obtain ⟨path, hpath, hs⟩ := List.mem_filterMap.mp hmem
    obtain ⟨_, heff⟩ := (mem_effectiveFiles hrule).mp hpath
    obtain ⟨_, ⟨pattern, hpattern, hmatch, rfl⟩, _⟩ := LabelRule.bestMatch_eq_some_iff.mp hs
    exact ⟨path, pattern, { heff with pattern_mem := hpattern, isMatch := hmatch }, rfl⟩
  · obtain ⟨s', hs', hle⟩ := heff.exists_bestMatch
    have hpath := (mem_effectiveFiles hrule).mpr ⟨pattern, heff⟩
    exact Specificity.le_trans hle (hgreatest s' (List.mem_filterMap.mpr ⟨path, hpath, hs'⟩))

theorem EffectiveMatch.exists_matchIn (h : EffectiveMatch table changes path rule pattern) :
    ∃ found, rule.matchIn table changes.paths = some found := by
  cases hfound : rule.matchIn table changes.paths with
  | some found => exact ⟨found, rfl⟩
  | none =>
    have hpath := (mem_effectiveFiles h.rule_mem).mpr ⟨pattern, h⟩
    rw [effectiveFiles_eq_filter_counts, LabelRule.matchIn_eq_none_iff.mp hfound] at hpath
    cases hpath

/-- The candidates of a change set are the rules with an effective match. -/
theorem mem_labels_evaluate_of_effective (h : EffectiveMatch table changes path rule pattern) :
    ∃ found, (rule.label, found) ∈ (changes.evaluate table).labels.entries
      ∧ Found table changes rule found := by
  obtain ⟨found, hmatch⟩ := h.exists_matchIn
  exact ⟨found, ChangeSet.mem_labels_evaluate.mpr ⟨rule, h.rule_mem, rfl, hmatch⟩,
    found_of_matchIn h.rule_mem hmatch⟩

theorem found_of_mem_labels_evaluate {l : String}
    (h : (l, found) ∈ (changes.evaluate table).labels.entries) :
    ∃ rule ∈ table.rules, rule.label = l ∧ Found table changes rule found := by
  obtain ⟨rule, hrule, hlabel, hmatch⟩ := ChangeSet.mem_labels_evaluate.mp h
  exact ⟨rule, hrule, hlabel, found_of_matchIn hrule hmatch⟩

end PathLabels
