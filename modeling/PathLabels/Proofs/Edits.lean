import PathLabels.Proofs.Placement

/-!
# What an edit of a table changes

A table is edited by one pattern or one rule at a time, and who edits a rule has that rule in mind.
This file says that nothing else is touched. What stands under a label depends on the rule of that
label and on the patterns to ignore, so an edit of another rule cannot be seen there. Under the
label of the edited rule a pattern more can only add files, and an exclusion or a pattern to ignore
more can only take them away, and the label goes with its last file.
-/

namespace PathLabels

/-! ## Edits -/

/-- One list is another one with one item more, at any place. -/
def Gains {α : Type} (a : α) (as bs : List α) : Prop :=
  ∃ before after, as = before ++ after ∧ bs = before ++ a :: after

/-- A rule owns the paths of one pattern more. -/
structure LabelRule.GainsDir (rule rule' : LabelRule) (p : PathPattern) : Prop where
  label : rule'.label = rule.label
  dirs : Gains p rule.dirs rule'.dirs
  exclusions : rule'.exclusions = rule.exclusions

/-- A rule leaves out the paths of one pattern more. -/
structure LabelRule.GainsExclusion (rule rule' : LabelRule) (p : PathPattern) : Prop where
  label : rule'.label = rule.label
  dirs : rule'.dirs = rule.dirs
  exclusions : Gains p rule.exclusions rule'.exclusions

namespace RuleTable

/-- Another rule stands in the place of one. -/
structure Revises (table table' : RuleTable) (rule rule' : LabelRule) : Prop where
  ignore : table'.ignore = table.ignore
  rules : ∃ before after, table.rules = before ++ rule :: after
    ∧ table'.rules = before ++ rule' :: after

/-- There is one rule more. -/
structure GainsRule (table table' : RuleTable) (rule : LabelRule) : Prop where
  ignore : table'.ignore = table.ignore
  rules : Gains rule table.rules table'.rules

/-- There is one pattern to ignore more. -/
structure GainsIgnore (table table' : RuleTable) (p : PathPattern) : Prop where
  ignore : Gains p table.ignore table'.ignore
  rules : table'.rules = table.rules

end RuleTable

/-- What one result has under a label the other one has too, perhaps with more files and a greater
specificity. -/
def LabelMatch.Within (found? found'? : Option LabelMatch) : Prop :=
  ∀ found, found? = some found → ∃ found', found'? = some found'
    ∧ found.files.Sublist found'.files ∧ found.specificity ≤ found'.specificity

/-- The files of a label; none if it does not stand in the result. -/
def MatchResult.filesOf (result : MatchResult) (l : String) : List String :=
  ((result.labels.get? l).map LabelMatch.files).getD []

section

variable {α : Type} {a b : α} {as bs : List α}

theorem Gains.mem_iff (h : Gains a as bs) : b ∈ bs ↔ b = a ∨ b ∈ as := by
  obtain ⟨before, after, rfl, rfl⟩ := h
  simp only [List.mem_append, List.mem_cons]
  exact or_left_comm

theorem Gains.any_eq (h : Gains a as bs) (p : α → Bool) : bs.any p = (p a || as.any p) := by
  rw [Bool.eq_iff_iff, Bool.or_eq_true, List.any_eq_true, List.any_eq_true]
  simp only [h.mem_iff, or_and_right, exists_or, exists_eq_left]

theorem Gains.all_eq (h : Gains a as bs) (p : α → Bool) : bs.all p = (p a && as.all p) := by
  rw [Bool.eq_iff_iff, Bool.and_eq_true, List.all_eq_true, List.all_eq_true]
  simp only [h.mem_iff, or_imp, forall_and, forall_eq]

end

variable {table table' : RuleTable} {changes : ChangeSet} {rule rule' : LabelRule}
  {p : PathPattern} {path l : String} {paths : List String}

/-! ## What a rule finds -/

namespace LabelRule

theorem files_matchIn :
    ((rule.matchIn table paths).map LabelMatch.files).getD []
      = paths.filter (rule.counts table) := by
  cases h : rule.matchIn table paths with
  | none => exact (matchIn_eq_none_iff.mp h).symm
  | some found =>
    rw [matchIn, Option.map_eq_some_iff] at h
    obtain ⟨s, -, rfl⟩ := h
    rfl

/-- A rule finds more than another if each path that counts for the other counts for it, with no
lower specificity. -/
theorem within_matchIn (hcounts : ∀ path, rule.counts table path = true →
      rule'.counts table' path = true)
    (hbest : ∀ path s, rule.bestMatch path = some s → rule'.counts table' path = true →
      ∃ s', rule'.bestMatch path = some s' ∧ s ≤ s') (paths : List String) :
    LabelMatch.Within (rule.matchIn table paths) (rule'.matchIn table' paths) := by
  intro found hfound
  rw [matchIn, Option.map_eq_some_iff] at hfound
  obtain ⟨s, hs, rfl⟩ := hfound
  -- the best match is that of a path, which counts for the other rule too
  obtain ⟨path, hpath, hmatch⟩ := List.mem_filterMap.mp (Specificity.best?_eq_some_iff.mp hs).1
  obtain ⟨hmem, hcount⟩ := List.mem_filter.mp hpath
  obtain ⟨s', hmatch', hle⟩ := hbest path s hmatch (hcounts path hcount)
  have hpath' := List.mem_filter.mpr ⟨hmem, hcounts path hcount⟩
  cases hfound' : rule'.matchIn table' paths with
  | none =>
    rw [matchIn_eq_none_iff.mp hfound'] at hpath'
    cases hpath'
  | some found' =>
    rw [matchIn, Option.map_eq_some_iff] at hfound'
    obtain ⟨best, hbest', rfl⟩ := hfound'
    refine ⟨_, rfl, List.monotone_filter_right paths hcounts, ?_⟩
    exact Specificity.le_trans hle ((Specificity.best?_eq_some_iff.mp hbest').2 s'
      (List.mem_filterMap.mpr ⟨path, hpath', hmatch'⟩))

/-- A table matters to what a rule finds by the paths that it ignores. -/
theorem matchIn_congr (hignored : table'.isIgnored = table.isIgnored) (rule : LabelRule)
    (paths : List String) : rule.matchIn table' paths = rule.matchIn table paths := by
  have hcounts : rule.counts table' = rule.counts table :=
    funext fun path => by rw [counts, counts, hignored]
  rw [matchIn, matchIn, hcounts]

end LabelRule

/-! ## What stands under a label -/

namespace MatchResult

theorem get?_evaluate (hrule : rule ∈ table.rules) :
    (changes.evaluate table).labels.get? rule.label = rule.matchIn table changes.paths :=
  (changes.describes_evaluate table).labels rule hrule

theorem filesOf_evaluate (hrule : rule ∈ table.rules) :
    (changes.evaluate table).filesOf rule.label = changes.paths.filter (rule.counts table) := by
  rw [filesOf, get?_evaluate hrule, LabelRule.files_matchIn]

/-- **A label goes with its last file.** -/
theorem get?_evaluate_eq_none_iff :
    (changes.evaluate table).labels.get? l = none ↔ (changes.evaluate table).filesOf l = [] := by
  by_cases hl : l ∈ table.rules.map LabelRule.label
  · obtain ⟨rule, hrule, rfl⟩ := List.mem_map.mp hl
    rw [get?_evaluate hrule, filesOf_evaluate hrule, LabelRule.matchIn_eq_none_iff]
  · have hnone := (changes.describes_evaluate table).others l hl
    rw [filesOf, hnone]
    exact ⟨fun _ => rfl, fun _ => rfl⟩

/-- What stands under a label depends on the rules for that label and on what is ignored. -/
theorem get?_evaluate_congr (hignored : table'.isIgnored = table.isIgnored)
    (hrules : ∀ rule : LabelRule, rule.label = l → (rule ∈ table'.rules ↔ rule ∈ table.rules)) :
    (changes.evaluate table').labels.get? l = (changes.evaluate table).labels.get? l := by
  by_cases hl : l ∈ table.rules.map LabelRule.label
  · obtain ⟨rule, hrule, rfl⟩ := List.mem_map.mp hl
    rw [get?_evaluate hrule, get?_evaluate ((hrules rule rfl).mpr hrule),
      LabelRule.matchIn_congr hignored]
  · have hl' : l ∉ table'.rules.map LabelRule.label := by
      intro hmem
      obtain ⟨rule, hrule, hlabel⟩ := List.mem_map.mp hmem
      exact hl (List.mem_map.mpr ⟨rule, (hrules rule hlabel).mp hrule, hlabel⟩)
    rw [(changes.describes_evaluate table').others l hl',
      (changes.describes_evaluate table).others l hl]

end MatchResult

/-! ## A pattern more -/

namespace LabelRule

theorem GainsDir.isExcluded_eq (h : rule.GainsDir rule' p) (path : String) :
    rule'.isExcluded path = rule.isExcluded path := by
  rw [isExcluded, isExcluded, h.exclusions]

theorem GainsDir.isSome_bestMatch_eq (h : rule.GainsDir rule' p) (path : String) :
    (rule'.bestMatch path).isSome
      = ((rule.bestMatch path).isSome || (!rule.isExcluded path && p.isMatch path)) := by
  rw [isSome_bestMatch, isSome_bestMatch, h.isExcluded_eq, h.dirs.any_eq, Bool.and_or_distrib_left,
    Bool.or_comm]

/-- The new pattern is one more to take the greatest of. -/
theorem GainsDir.exists_bestMatch (h : rule.GainsDir rule' p) {s : Specificity}
    (hs : rule.bestMatch path = some s) : ∃ s', rule'.bestMatch path = some s' ∧ s ≤ s' := by
  have hsome : (rule'.bestMatch path).isSome = true := by rw [h.isSome_bestMatch_eq, hs]; rfl
  obtain ⟨s', hs'⟩ := Option.isSome_iff_exists.mp hsome
  obtain ⟨-, ⟨q, hq, hmatch, rfl⟩, -⟩ := bestMatch_eq_some_iff.mp hs
  exact ⟨s', hs', (bestMatch_eq_some_iff.mp hs').2.2 q (h.dirs.mem_iff.mpr (Or.inr hq)) hmatch⟩

theorem GainsDir.counts_of_counts (h : rule.GainsDir rule' p)
    (hignored : table'.isIgnored = table.isIgnored) (hcounts : rule.counts table path = true) :
    rule'.counts table' path = true := by
  rw [counts, Bool.and_eq_true] at hcounts ⊢
  rw [hignored, h.isSome_bestMatch_eq, hcounts.2]
  exact ⟨hcounts.1, rfl⟩

/-- A path that counts now and has not counted before falls under the new pattern. -/
theorem GainsDir.isMatch_of_counts (h : rule.GainsDir rule' p)
    (hignored : table'.isIgnored = table.isIgnored) (hcounts : rule'.counts table' path = true) :
    rule.counts table path = true ∨ p.isMatch path = true := by
  rw [counts, Bool.and_eq_true, hignored, h.isSome_bestMatch_eq, Bool.or_eq_true,
    Bool.and_eq_true] at hcounts
  rw [counts, Bool.and_eq_true]
  exact hcounts.2.imp (fun hsome => ⟨hcounts.1, hsome⟩) And.right

/-- The new exclusion takes away all matches on the paths that it matches, and no other one. -/
theorem GainsExclusion.bestMatch_eq (h : rule.GainsExclusion rule' p) (path : String) :
    rule'.bestMatch path = if p.isMatch path then none else rule.bestMatch path := by
  rw [bestMatch, bestMatch, isExcluded, h.exclusions.any_eq, h.dirs, ← isExcluded]
  cases p.isMatch path with
  | true => rfl
  | false => rfl

theorem GainsExclusion.counts_eq (h : rule.GainsExclusion rule' p)
    (hignored : table'.isIgnored = table.isIgnored) (path : String) :
    rule'.counts table' path = (!p.isMatch path && rule.counts table path) := by
  rw [counts, counts, hignored, h.bestMatch_eq]
  cases p.isMatch path with
  | true => exact Bool.and_false _
  | false => rfl

theorem GainsExclusion.bestMatch_of_bestMatch (h : rule.GainsExclusion rule' p) {s : Specificity}
    (hs : rule'.bestMatch path = some s) : rule.bestMatch path = some s := by
  rw [h.bestMatch_eq] at hs
  split at hs
  · cases hs
  · exact hs

end LabelRule

/-! ## What an edited table has in common with the old one -/

namespace RuleTable

theorem isIgnored_congr (h : table'.ignore = table.ignore) : table'.isIgnored = table.isIgnored :=
  funext fun path => by rw [isIgnored, isIgnored, h]

namespace Revises

theorem mem_left (h : table.Revises table' rule rule') : rule ∈ table.rules := by
  obtain ⟨before, after, hrules, -⟩ := h.rules
  rw [hrules]
  exact List.mem_append_right before List.mem_cons_self

theorem mem_right (h : table.Revises table' rule rule') : rule' ∈ table'.rules := by
  obtain ⟨before, after, -, hrules⟩ := h.rules
  rw [hrules]
  exact List.mem_append_right before List.mem_cons_self

/-- The rules for other labels are the same ones. -/
theorem mem_rules_iff (h : table.Revises table' rule rule') (hlabel : rule'.label = rule.label)
    {other : LabelRule} (hne : other.label ≠ rule.label) :
    other ∈ table'.rules ↔ other ∈ table.rules := by
  obtain ⟨before, after, hrules, hrules'⟩ := h.rules
  -- neither of the two rules that differ has the label
  have hold : other ≠ rule := fun heq => hne (heq ▸ rfl)
  have hnew : other ≠ rule' := fun heq => hne (heq ▸ hlabel)
  rw [hrules, hrules']
  simp only [List.mem_append, List.mem_cons, hold, hnew, false_or]

/-- **Revising a rule cannot be seen at other labels.** -/
theorem get?_evaluate (h : table.Revises table' rule rule') (hlabel : rule'.label = rule.label)
    (changes : ChangeSet) (hl : l ≠ rule.label) :
    (changes.evaluate table').labels.get? l = (changes.evaluate table).labels.get? l := by
  refine MatchResult.get?_evaluate_congr (isIgnored_congr h.ignore) ?_
  rintro other rfl
  exact h.mem_rules_iff hlabel hl

/-- Under its label stands what the new rule finds. -/
theorem get?_evaluate_self (h : table.Revises table' rule rule') (hlabel : rule'.label = rule.label)
    (changes : ChangeSet) : (changes.evaluate table').labels.get? rule.label
      = rule'.matchIn table' changes.paths := by
  rw [← hlabel]
  exact MatchResult.get?_evaluate h.mem_right

theorem filesOf_evaluate_self (h : table.Revises table' rule rule')
    (hlabel : rule'.label = rule.label) (changes : ChangeSet) :
    (changes.evaluate table').filesOf rule.label = changes.paths.filter (rule'.counts table') := by
  rw [← hlabel]
  exact MatchResult.filesOf_evaluate h.mem_right

end Revises

namespace GainsRule

/-- The label of the new rule is a fresh one, as a table has one rule for a label. -/
theorem label_not_mem (h : table.GainsRule table' rule) :
    rule.label ∉ table.rules.map LabelRule.label := by
  obtain ⟨before, after, hrules, hrules'⟩ := h.rules
  have hnodup := table'.labels_nodup
  rw [hrules', List.map_append, List.map_cons] at hnodup
  rw [hrules, List.map_append]
  exact (List.nodup_cons.mp (List.nodup_middle.mp hnodup)).1

theorem get?_evaluate (h : table.GainsRule table' rule) (changes : ChangeSet)
    (hl : l ≠ rule.label) :
    (changes.evaluate table').labels.get? l = (changes.evaluate table).labels.get? l := by
  refine MatchResult.get?_evaluate_congr (isIgnored_congr h.ignore) ?_
  rintro other rfl
  rw [h.rules.mem_iff]
  exact or_iff_right fun heq => hl (heq ▸ rfl)

/-- A path that counts for the new rule is not unmatched any more, and no other one leaves. -/
theorem unmatched_evaluate (h : table.GainsRule table' rule) (changes : ChangeSet) :
    (changes.evaluate table').unmatched = (changes.evaluate table).unmatched.filter fun path =>
      decide (path ∉ (changes.evaluate table').filesOf rule.label) := by
  have hrule : rule ∈ table'.rules := h.rules.mem_iff.mpr (Or.inl rfl)
  rw [(changes.describes_evaluate table').unmatched, (changes.describes_evaluate table).unmatched,
    List.filter_filter, MatchResult.filesOf_evaluate hrule, isIgnored_congr h.ignore]
  refine List.filter_congr fun path hpath => ?_
  -- what is not ignored is left over if the old rules and the new one do not match it
  have hfile : decide (path ∉ changes.paths.filter (rule.counts table'))
      = !(!table.isIgnored path && (rule.bestMatch path).isSome) := by
    rw [Bool.eq_iff_iff, decide_eq_true_eq, Bool.not_eq_true', List.mem_filter, and_iff_right hpath,
      Bool.not_eq_true, LabelRule.counts, isIgnored_congr h.ignore]
  rw [hfile, MatchResult.isUnmatched, h.rules.all_eq]
  cases table.isIgnored path <;> cases rule.bestMatch path <;> rfl

end GainsRule

namespace GainsIgnore

theorem isIgnored_eq (h : table.GainsIgnore table' p) (path : String) :
    table'.isIgnored path = (p.isMatch path || table.isIgnored path) :=
  h.ignore.any_eq fun q => q.isMatch path

theorem counts_eq (h : table.GainsIgnore table' p) (rule : LabelRule) (path : String) :
    rule.counts table' path = (!p.isMatch path && rule.counts table path) := by
  rw [LabelRule.counts, LabelRule.counts, h.isIgnored_eq, Bool.not_or, Bool.and_assoc]

theorem ignored_evaluate (h : table.GainsIgnore table' p) (changes : ChangeSet) :
    (changes.evaluate table).ignored.Sublist (changes.evaluate table').ignored
      ∧ ∀ path, path ∈ (changes.evaluate table').ignored
          ↔ path ∈ (changes.evaluate table).ignored
            ∨ (path ∈ changes.paths ∧ p.isMatch path = true) := by
  refine ⟨?_, fun path => ?_⟩
  · rw [(changes.describes_evaluate table).ignored, (changes.describes_evaluate table').ignored]
    refine List.monotone_filter_right _ fun path hignored => ?_
    rw [h.isIgnored_eq, hignored, Bool.or_true]
  · rw [mem_ignored_iff, mem_ignored_iff, h.isIgnored_eq, Bool.or_eq_true, and_or_left, or_comm]

theorem unmatched_evaluate (h : table.GainsIgnore table' p) (changes : ChangeSet) :
    (changes.evaluate table').unmatched
      = (changes.evaluate table).unmatched.filter fun path => !p.isMatch path := by
  rw [(changes.describes_evaluate table').unmatched, (changes.describes_evaluate table).unmatched,
    List.filter_filter]
  refine List.filter_congr fun path _ => ?_
  rw [h.isIgnored_eq, MatchResult.isUnmatched, h.rules, Bool.not_or, Bool.and_assoc,
    MatchResult.isUnmatched]

theorem filesOf_evaluate (h : table.GainsIgnore table' p) (changes : ChangeSet) (l : String) :
    (changes.evaluate table').filesOf l
      = ((changes.evaluate table).filesOf l).filter fun path => !p.isMatch path := by
  by_cases hl : l ∈ table.rules.map LabelRule.label
  · obtain ⟨rule, hrule, rfl⟩ := List.mem_map.mp hl
    rw [MatchResult.filesOf_evaluate hrule, MatchResult.filesOf_evaluate (h.rules ▸ hrule),
      List.filter_filter]
    exact List.filter_congr fun path _ => h.counts_eq rule path
  · have hl' : l ∉ table'.rules.map LabelRule.label := by rw [h.rules]; exact hl
    rw [MatchResult.filesOf, MatchResult.filesOf, (changes.describes_evaluate table').others l hl',
      (changes.describes_evaluate table).others l hl]
    rfl

theorem within_evaluate (h : table.GainsIgnore table' p) (changes : ChangeSet) (l : String) :
    LabelMatch.Within ((changes.evaluate table').labels.get? l)
      ((changes.evaluate table).labels.get? l) := by
  by_cases hl : l ∈ table'.rules.map LabelRule.label
  · obtain ⟨rule, hrule, rfl⟩ := List.mem_map.mp hl
    rw [MatchResult.get?_evaluate hrule, MatchResult.get?_evaluate (h.rules ▸ hrule)]
    refine LabelRule.within_matchIn (fun path hcounts => ?_)
      (fun path s hs _ => ⟨s, hs, Specificity.le_refl s⟩) changes.paths
    rw [h.counts_eq, Bool.and_eq_true] at hcounts
    exact hcounts.2
  · rw [(changes.describes_evaluate table').others l hl]
    exact nofun

end GainsIgnore

end RuleTable

/-! ## Edits of one rule -/

namespace LabelRule

/-- **A pattern more only adds files, and the label never gets less specific.** -/
theorem GainsDir.evaluate (h : rule.GainsDir rule' p) (htable : table.Revises table' rule rule')
    (changes : ChangeSet) :
    LabelMatch.Within ((changes.evaluate table).labels.get? rule.label)
        ((changes.evaluate table').labels.get? rule.label)
      ∧ ∀ path ∈ (changes.evaluate table').filesOf rule.label,
          path ∈ (changes.evaluate table).filesOf rule.label ∨ p.isMatch path = true := by
  have hignored := RuleTable.isIgnored_congr htable.ignore
  refine ⟨?_, fun path hpath => ?_⟩
  · rw [MatchResult.get?_evaluate htable.mem_left, htable.get?_evaluate_self h.label]
    exact within_matchIn (fun path => h.counts_of_counts hignored)
      (fun path s hs _ => h.exists_bestMatch hs) changes.paths
  · rw [htable.filesOf_evaluate_self h.label, List.mem_filter] at hpath
    rw [MatchResult.filesOf_evaluate htable.mem_left, List.mem_filter, and_iff_right hpath.1]
    exact h.isMatch_of_counts hignored hpath.2

/-- **An exclusion more takes the files away that it matches, and the label never gets more
specific.** -/
theorem GainsExclusion.evaluate (h : rule.GainsExclusion rule' p)
    (htable : table.Revises table' rule rule') (changes : ChangeSet) :
    LabelMatch.Within ((changes.evaluate table').labels.get? rule.label)
        ((changes.evaluate table).labels.get? rule.label)
      ∧ (changes.evaluate table').filesOf rule.label
          = ((changes.evaluate table).filesOf rule.label).filter fun path => !p.isMatch path := by
  have hignored := RuleTable.isIgnored_congr htable.ignore
  refine ⟨?_, ?_⟩
  · rw [MatchResult.get?_evaluate htable.mem_left, htable.get?_evaluate_self h.label]
    refine within_matchIn (fun path hcounts => ?_)
      (fun path s hs _ => ⟨s, h.bestMatch_of_bestMatch hs, Specificity.le_refl s⟩) changes.paths
    rw [h.counts_eq hignored, Bool.and_eq_true] at hcounts
    exact hcounts.2
  · rw [htable.filesOf_evaluate_self h.label, MatchResult.filesOf_evaluate htable.mem_left,
      List.filter_filter]
    exact List.filter_congr fun path _ => h.counts_eq hignored path

end LabelRule

theorem ignored_evaluate_congr (h : table'.ignore = table.ignore) (changes : ChangeSet) :
    (changes.evaluate table').ignored = (changes.evaluate table).ignored := by
  rw [(changes.describes_evaluate table').ignored, (changes.describes_evaluate table).ignored,
    RuleTable.isIgnored_congr h]

/-- The paths with a place in a result are those of the change set. -/
theorem hasOnePlace_evaluate_iff :
    (changes.evaluate table).HasOnePlace path ↔ path ∈ changes.paths := by
  refine ⟨?_, hasOnePlace_evaluate⟩
  rintro (⟨h, -⟩ | ⟨-, h, -⟩ | ⟨-, -, h⟩)
  · exact (mem_ignored_iff.mp h).1
  · exact (mem_unmatched_iff.mp h).1
  · exact (files_evaluate_iff.mp h).1

/--
**An edit of a table changes what it is made for, in one direction.**

Take two tables, one of them an edit of the other one, and one change set.

A rule with a pattern more loses no file and no specificity, and whatever it gains is matched by the
new pattern. A rule with an exclusion more keeps exactly the files that the exclusion does not match
and gains no specificity. Neither can be seen at another label or among the ignored paths. A new
rule, whose label is a fresh one, leaves all other labels as they are and takes the paths that it
matches out of the unmatched ones. A new pattern to ignore takes what it matches out of the
unmatched paths and out of the files of every label. A label stands in the result exactly as long
as it has a file, and every changed path has one place.
-/
theorem edits_are_local (table table' : RuleTable) (changes : ChangeSet) :
    let result := changes.evaluate table
    let result' := changes.evaluate table'
    (∀ rule rule' p, table.Revises table' rule rule' → rule.GainsDir rule' p →
        LabelMatch.Within (result.labels.get? rule.label) (result'.labels.get? rule.label)
          ∧ (∀ path ∈ result'.filesOf rule.label,
              path ∈ result.filesOf rule.label ∨ p.isMatch path = true)
          ∧ result'.ignored = result.ignored
          ∧ ∀ l, l ≠ rule.label → result'.labels.get? l = result.labels.get? l)
      ∧ (∀ rule rule' p, table.Revises table' rule rule' → rule.GainsExclusion rule' p →
          LabelMatch.Within (result'.labels.get? rule.label) (result.labels.get? rule.label)
            ∧ result'.filesOf rule.label
                = (result.filesOf rule.label).filter (fun path => !p.isMatch path)
            ∧ result'.ignored = result.ignored
            ∧ ∀ l, l ≠ rule.label → result'.labels.get? l = result.labels.get? l)
      ∧ (∀ rule, table.GainsRule table' rule →
          result.labels.get? rule.label = none
            ∧ (∀ l, l ≠ rule.label → result'.labels.get? l = result.labels.get? l)
            ∧ result'.ignored = result.ignored
            ∧ result'.unmatched = result.unmatched.filter
                (fun path => decide (path ∉ result'.filesOf rule.label)))
      ∧ (∀ p, table.GainsIgnore table' p →
          (result.ignored.Sublist result'.ignored
              ∧ ∀ path, path ∈ result'.ignored
                  ↔ path ∈ result.ignored ∨ (path ∈ changes.paths ∧ p.isMatch path = true))
            ∧ result'.unmatched = result.unmatched.filter (fun path => !p.isMatch path)
            ∧ ∀ l, LabelMatch.Within (result'.labels.get? l) (result.labels.get? l)
                ∧ result'.filesOf l = (result.filesOf l).filter (fun path => !p.isMatch path))
      ∧ (∀ l, result'.labels.get? l = none ↔ result'.filesOf l = [])
      ∧ ∀ path, result'.HasOnePlace path ↔ path ∈ changes.paths := by
  intro result result'
  refine ⟨fun rule rule' p htable h => ?_, fun rule rule' p htable h => ?_, fun rule h => ?_,
    fun p h => ?_, fun l => MatchResult.get?_evaluate_eq_none_iff,
    fun path => hasOnePlace_evaluate_iff⟩
  · obtain ⟨hwithin, hnew⟩ := h.evaluate htable changes
    exact ⟨hwithin, hnew, ignored_evaluate_congr htable.ignore changes,
      fun l => htable.get?_evaluate h.label changes⟩
  · obtain ⟨hwithin, hfiles⟩ := h.evaluate htable changes
    exact ⟨hwithin, hfiles, ignored_evaluate_congr htable.ignore changes,
      fun l => htable.get?_evaluate h.label changes⟩
  · exact ⟨(changes.describes_evaluate table).others _ h.label_not_mem,
      fun l => h.get?_evaluate changes, ignored_evaluate_congr h.ignore changes,
      h.unmatched_evaluate changes⟩
  · exact ⟨h.ignored_evaluate changes, h.unmatched_evaluate changes,
      fun l => ⟨h.within_evaluate changes l, h.filesOf_evaluate changes l⟩⟩

/-- `RuleTable.ownSubtopic` with an exclusion more. -/
def RuleTable.ownSubtopicNarrowed : RuleTable where
  settings := {}
  ignore := [.literal "Mathlib.lean" ["Mathlib.lean"]]
  rules := [⟨"t-analysis", [.literal "Mathlib/Analysis" ["Mathlib", "Analysis"]],
      [.literal "Mathlib/Analysis/Complex" ["Mathlib", "Analysis", "Complex"],
        .literal "Mathlib/Analysis/Normed" ["Mathlib", "Analysis", "Normed"]]⟩,
    ⟨"t-complex", [.literal "Mathlib" ["Mathlib"],
      .literal "Mathlib/Analysis/Complex" ["Mathlib", "Analysis", "Complex"]], []⟩]
  labels_nodup := by decide

/-- The exclusion takes the only file of its label, which goes with it, and the other label keeps
that file. -/
theorem edits_are_local_narrowed :
    let changes := ChangeSet.ofList ["Mathlib/Analysis/Complex/Basic.lean",
      "Mathlib/Analysis/Normed/Basic.lean"]
    let result := changes.evaluate .ownSubtopic
    let result' := changes.evaluate .ownSubtopicNarrowed
    result.filesOf "t-analysis" = ["Mathlib/Analysis/Normed/Basic.lean"]
      ∧ result'.labels.get? "t-analysis" = none
      ∧ result'.labels.get? "t-complex" = result.labels.get? "t-complex"
      ∧ "Mathlib/Analysis/Normed/Basic.lean" ∈ result'.filesOf "t-complex" := by
  intro changes result result'
  have hfile : result.filesOf "t-analysis" = ["Mathlib/Analysis/Normed/Basic.lean"] := by
    decide +kernel
  obtain ⟨-, hexclusion, -, -, hgone, -⟩ :=
    edits_are_local .ownSubtopic .ownSubtopicNarrowed changes
  obtain ⟨-, hfiles, -, hothers⟩ := hexclusion _ _ _
    ⟨rfl, [], _, rfl, rfl⟩ ⟨rfl, rfl, [_], [], rfl, rfl⟩
  have hsame := hothers "t-complex" (by decide)
  refine ⟨hfile, (hgone "t-analysis").mpr ?_, hsame, ?_⟩
  · rw [hfiles, hfile]
    decide +kernel
  · rw [MatchResult.filesOf, hsame]
    decide +kernel

end PathLabels
