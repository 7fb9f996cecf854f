import PathLabels.Matching
import PathLabels.Proofs.Lookup

/-!
# What matching finds

A table says which paths count towards which rule: those that it does not ignore, that one of the
rule's patterns matches and none of its exclusions. This file reads the result of matching as that
relation. The result is built path by path and rule by rule in one map. Since a table has one rule
for a label, what the map holds under a label depends on that rule alone.
-/

namespace PathLabels

/-! ## The greatest specificity -/

namespace Specificity

theorem le_max_left (a b : Specificity) : a ≤ a.max b := by
  rw [max]
  split
  · assumption
  · exact Specificity.le_refl a

theorem le_max_right (a b : Specificity) : b ≤ a.max b := by
  rw [max]
  split
  · exact Specificity.le_refl b
  · rename_i h
    exact (Specificity.le_total a b).resolve_left h

theorem max_eq (a b : Specificity) : a.max b = a ∨ a.max b = b := by
  rw [max]
  split
  · exact Or.inr rfl
  · exact Or.inl rfl

/-- The greatest of a list of specificities when one more comes in. -/
def join (found : Option Specificity) (s : Specificity) : Specificity :=
  match found with
  | none => s
  | some best => best.max s

theorem best?_concat (ss : List Specificity) (s : Specificity) :
    best? (ss ++ [s]) = some (join (best? ss) s) := by
  cases ss with
  | nil => rfl
  | cons first ss => rw [List.cons_append, best?, List.foldl_append]; rfl

theorem best?_eq_none_iff {ss : List Specificity} : best? ss = none ↔ ss = [] := by
  cases ss with
  | nil => exact ⟨fun _ => rfl, fun _ => rfl⟩
  | cons s ss => exact ⟨nofun, nofun⟩

theorem foldl_max_spec (ss : List Specificity) (first : Specificity) :
    ss.foldl max first ∈ first :: ss ∧ ∀ s ∈ first :: ss, s ≤ ss.foldl max first := by
  induction ss generalizing first with
  | nil => exact ⟨List.mem_cons_self, fun s hs => by rw [List.mem_singleton.mp hs]; simp⟩
  | cons next ss ih =>
    obtain ⟨hmem, hle⟩ := ih (first.max next)
    rw [List.foldl_cons]
    refine ⟨?_, ?_⟩
    · rcases List.mem_cons.mp hmem with h | h
      · rw [h]
        rcases max_eq first next with h' | h'
        · rw [h']; exact List.mem_cons_self
        · rw [h']; exact List.mem_cons_of_mem _ List.mem_cons_self
      · exact List.mem_cons_of_mem _ (List.mem_cons_of_mem _ h)
    · have hjoined := hle (first.max next) List.mem_cons_self
      intro s hs
      rcases List.mem_cons.mp hs with rfl | hs
      · exact Specificity.le_trans (le_max_left s next) hjoined
      · rcases List.mem_cons.mp hs with rfl | hs
        · exact Specificity.le_trans (le_max_right first s) hjoined
        · exact hle s (List.mem_cons_of_mem _ hs)

/-- `best?` is the greatest one: it is among them, and no other is greater. -/
theorem best?_eq_some_iff {ss : List Specificity} {best : Specificity} :
    best? ss = some best ↔ best ∈ ss ∧ ∀ s ∈ ss, s ≤ best := by
  cases ss with
  | nil => exact ⟨nofun, fun h => nomatch h.1⟩
  | cons first ss =>
    obtain ⟨hmem, hle⟩ := foldl_max_spec ss first
    constructor
    · intro h
      rw [← Option.some.inj h]
      exact ⟨hmem, hle⟩
    · rintro ⟨hbest, hgreatest⟩
      exact congrArg some (Specificity.le_antisymm (hgreatest _ hmem) (hle _ hbest))

end Specificity

/-! ## One rule -/

namespace LabelRule

/-- The best match is the greatest specificity among the patterns that match, unless an exclusion
matches too. -/
theorem bestMatch_eq_some_iff {rule : LabelRule} {path : String} {s : Specificity} :
    rule.bestMatch path = some s ↔ rule.isExcluded path = false
      ∧ (∃ p ∈ rule.dirs, p.isMatch path = true ∧ p.specificity = s)
      ∧ ∀ p ∈ rule.dirs, p.isMatch path = true → p.specificity ≤ s := by
  rw [bestMatch]
  split
  · rename_i h
    rw [h]
    exact ⟨nofun, fun h => nomatch h.1⟩
  · rename_i h
    rw [Specificity.best?_eq_some_iff]
    simp only [List.mem_map, List.mem_filter]
    constructor
    · rintro ⟨⟨p, ⟨hp, hmatch⟩, hs⟩, hgreatest⟩
      exact ⟨by simpa using h, ⟨p, hp, hmatch, hs⟩,
        fun q hq hmatch' => hgreatest _ ⟨q, ⟨hq, hmatch'⟩, rfl⟩⟩
    · rintro ⟨_, ⟨p, hp, hmatch, hs⟩, hgreatest⟩
      refine ⟨⟨p, ⟨hp, hmatch⟩, hs⟩, ?_⟩
      rintro _ ⟨q, ⟨hq, hmatch'⟩, rfl⟩
      exact hgreatest q hq hmatch'

theorem isSome_bestMatch (rule : LabelRule) (path : String) :
    (rule.bestMatch path).isSome
      = (!rule.isExcluded path && rule.dirs.any fun p => p.isMatch path) := by
  rw [bestMatch]
  split
  · rename_i h
    rw [h]
    rfl
  · rename_i h
    rw [Bool.not_eq_true] at h
    rw [h, Bool.not_false, Bool.true_and, Bool.eq_iff_iff, Option.isSome_iff_ne_none, Ne,
      Specificity.best?_eq_none_iff, List.map_eq_nil_iff, List.filter_eq_nil_iff, List.any_eq_true]
    simp only [Classical.not_forall, Classical.not_not, exists_prop]

/-- Whether a path counts towards a rule of a table. -/
def counts (table : RuleTable) (rule : LabelRule) (path : String) : Bool :=
  !table.isIgnored path && (rule.bestMatch path).isSome

/-- What a rule finds in a list of paths. -/
def matchIn (table : RuleTable) (rule : LabelRule) (paths : List String) : Option LabelMatch :=
  let files := paths.filter (rule.counts table)
  (Specificity.best? (files.filterMap rule.bestMatch)).map fun s => ⟨files, s⟩

end LabelRule

namespace MatchResult

/-- What stands under a label after one more file. -/
def tally (path : String) (s : Specificity) (found : Option LabelMatch) : LabelMatch :=
  match found with
  | none => ⟨[path], s⟩
  | some found => ⟨found.files ++ [path], found.specificity.max s⟩

end MatchResult

namespace LabelRule

variable {table : RuleTable} {rule : LabelRule} {paths : List String} {path : String}

theorem counts_of_isIgnored (h : table.isIgnored path = true) :
    rule.counts table path = false := by
  rw [counts, h]
  rfl

theorem counts_of_bestMatch_eq_none (h : rule.bestMatch path = none) :
    rule.counts table path = false := by
  rw [counts, h]
  exact Bool.and_false _

theorem matchIn_concat_of_not_counts (h : rule.counts table path = false) :
    rule.matchIn table (paths ++ [path]) = rule.matchIn table paths := by
  rw [matchIn, List.filter_append, List.filter_cons_of_neg (by rw [h]; exact Bool.false_ne_true),
    List.filter_nil, List.append_nil]
  rfl

/-- **A rule finds something exactly if some path counts.** -/
theorem matchIn_eq_none_iff :
    rule.matchIn table paths = none ↔ paths.filter (rule.counts table) = [] := by
  rw [matchIn, Option.map_eq_none_iff, Specificity.best?_eq_none_iff]
  refine ⟨fun h => ?_, fun h => by rw [h]; rfl⟩
  refine List.eq_nil_iff_forall_not_mem.mpr fun path hpath => ?_
  have hsome := (Bool.and_eq_true_iff.mp (List.mem_filter.mp hpath).2).2
  obtain ⟨s, hs⟩ := Option.isSome_iff_exists.mp hsome
  have hmem : s ∈ (paths.filter (rule.counts table)).filterMap rule.bestMatch :=
    List.mem_filterMap.mpr ⟨path, hpath, hs⟩
  rw [h] at hmem
  cases hmem

/-- A path that counts adds a file and raises the specificity if it is the greatest so far. -/
theorem matchIn_concat_of_bestMatch {s : Specificity} (hignored : table.isIgnored path = false)
    (h : rule.bestMatch path = some s) :
    rule.matchIn table (paths ++ [path])
      = some (MatchResult.tally path s (rule.matchIn table paths)) := by
  have hcounts : rule.counts table path = true := by rw [counts, hignored, h]; rfl
  rw [matchIn, List.filter_append, List.filter_cons_of_pos hcounts, List.filter_nil]
  rw [List.filterMap_append, List.filterMap_cons_some h, List.filterMap_nil,
    Specificity.best?_concat, matchIn]
  cases hbest : Specificity.best? ((paths.filter (rule.counts table)).filterMap rule.bestMatch) with
  | some best => rfl
  | none =>
    -- nothing has counted before, so this file is the first
    have hfiles : paths.filter (rule.counts table) = [] :=
      matchIn_eq_none_iff.mp (by rw [matchIn, hbest]; rfl)
    rw [hfiles]
    rfl

end LabelRule

/-! ## All rules -/

namespace MatchResult

variable {table : RuleTable} {path l : String} {labels : OrderedMap LabelMatch}

theorem record_eq_alter (labels : OrderedMap LabelMatch) (l path : String) (s : Specificity) :
    record labels l path s = labels.alter l (tally path s) := by
  rw [record]
  congr

theorem recordRules_cons (labels : OrderedMap LabelMatch) (path : String) (rule : LabelRule)
    (rules : List LabelRule) :
    recordRules labels path (rule :: rules)
      = recordRules (match rule.bestMatch path with
          | none => labels
          | some s => record labels rule.label path s) path rules := rfl

/-- A label of no rule is left alone. -/
theorem get?_recordRules_of_not_mem {rules : List LabelRule}
    (h : l ∉ rules.map LabelRule.label) :
    (recordRules labels path rules).get? l = labels.get? l := by
  induction rules generalizing labels with
  | nil => rfl
  | cons rule rules ih =>
    rw [List.map_cons, List.mem_cons, not_or] at h
    rw [recordRules_cons, ih h.2]
    cases rule.bestMatch path with
    | none => rfl
    | some s =>
      dsimp only
      rw [record_eq_alter, OrderedMap.get?_alter, if_neg h.1]

/-- What stands under a label of the table is up to its rule. -/
theorem get?_recordRules {rules : List LabelRule} (hnodup : (rules.map LabelRule.label).Nodup)
    {rule : LabelRule} (hrule : rule ∈ rules) :
    (recordRules labels path rules).get? rule.label
      = match rule.bestMatch path with
        | none => labels.get? rule.label
        | some s => some (tally path s (labels.get? rule.label)) := by
  induction rules generalizing labels with
  | nil => cases hrule
  | cons first rules ih =>
    obtain ⟨hfirst, hrest⟩ := List.nodup_cons.mp hnodup
    rw [recordRules_cons]
    rcases List.mem_cons.mp hrule with rfl | hmem
    · rw [get?_recordRules_of_not_mem hfirst]
      cases rule.bestMatch path with
      | none => rfl
      | some s =>
        dsimp only
        rw [record_eq_alter, OrderedMap.get?_alter, if_pos rfl]
    · -- the first rule has another label and does not touch this entry
      have hne : rule.label ≠ first.label := fun h =>
        hfirst (h ▸ List.mem_map.mpr ⟨rule, hmem, rfl⟩)
      rw [ih hrest hmem]
      cases first.bestMatch path with
      | none => rfl
      | some s =>
        dsimp only
        rw [record_eq_alter, OrderedMap.get?_alter, if_neg hne]

/-- Whether no rule of a table matches a path. -/
def isUnmatched (table : RuleTable) (path : String) : Bool :=
  table.rules.all fun rule => (rule.bestMatch path).isNone

/-- The result says of the given paths what the table says of them. -/
structure Describes (table : RuleTable) (paths : List String) (result : MatchResult) : Prop where
  ignored : result.ignored = paths.filter table.isIgnored
  unmatched : result.unmatched
    = paths.filter fun path => !table.isIgnored path && isUnmatched table path
  /-- Under a label of the table stands what its rule finds. -/
  labels : ∀ rule ∈ table.rules, result.labels.get? rule.label = rule.matchIn table paths
  /-- Under no other label stands anything. -/
  others : ∀ l ∉ table.rules.map LabelRule.label, result.labels.get? l = none

theorem describes_nil (table : RuleTable) : Describes table [] {} where
  ignored := rfl
  unmatched := rfl
  labels := fun _ _ => rfl
  others := fun _ _ => rfl

theorem filter_concat (p : String → Bool) (paths : List String) (path : String) :
    (paths ++ [path]).filter p = if p path then paths.filter p ++ [path] else paths.filter p := by
  rw [List.filter_append]
  by_cases h : p path = true
  · rw [if_pos h, List.filter_cons_of_pos h, List.filter_nil]
  · rw [if_neg h, List.filter_cons_of_neg h, List.filter_nil, List.append_nil]

variable {paths : List String} {result : MatchResult}

theorem describes_add_ignored (h : Describes table paths result)
    (hignored : table.isIgnored path = true) :
    Describes table (paths ++ [path]) { result with ignored := result.ignored ++ [path] } where
  ignored := by rw [filter_concat, if_pos hignored, ← h.ignored]
  unmatched := by rw [filter_concat, hignored]; exact h.unmatched
  labels rule hrule := by
    rw [LabelRule.matchIn_concat_of_not_counts (LabelRule.counts_of_isIgnored hignored)]
    exact h.labels rule hrule
  others := h.others

theorem describes_add_unmatched (h : Describes table paths result)
    (hignored : table.isIgnored path = false) (hunmatched : isUnmatched table path = true) :
    Describes table (paths ++ [path]) { result with unmatched := result.unmatched ++ [path] } where
  ignored := by rw [filter_concat, hignored]; exact h.ignored
  unmatched := by rw [filter_concat, hignored, hunmatched, ← h.unmatched]; rfl
  labels rule hrule := by
    have hnone := Option.isNone_iff_eq_none.mp (List.all_eq_true.mp hunmatched rule hrule)
    rw [LabelRule.matchIn_concat_of_not_counts (LabelRule.counts_of_bestMatch_eq_none hnone)]
    exact h.labels rule hrule
  others := h.others

theorem describes_add_matched (h : Describes table paths result)
    (hignored : table.isIgnored path = false) (hmatched : isUnmatched table path = false) :
    Describes table (paths ++ [path])
      { result with labels := recordRules result.labels path table.rules } where
  ignored := by rw [filter_concat, hignored]; exact h.ignored
  unmatched := by rw [filter_concat, hignored, hmatched]; exact h.unmatched
  labels rule hrule := by
    rw [get?_recordRules table.labels_nodup hrule, h.labels rule hrule]
    cases hbest : rule.bestMatch path with
    | none =>
      exact (LabelRule.matchIn_concat_of_not_counts
        (LabelRule.counts_of_bestMatch_eq_none hbest)).symm
    | some s => exact (LabelRule.matchIn_concat_of_bestMatch hignored hbest).symm
  others l hl := by rw [get?_recordRules_of_not_mem hl]; exact h.others l hl

/-- **One more path keeps the result right.** -/
theorem describes_add (h : Describes table paths result) (path : String) :
    Describes table (paths ++ [path]) (add table result path) := by
  rw [add]
  split
  · rename_i hignored
    exact describes_add_ignored h hignored
  · rename_i hignored
    rw [Bool.not_eq_true] at hignored
    split
    · rename_i hunmatched
      exact describes_add_unmatched h hignored hunmatched
    · rename_i hmatched
      rw [Bool.not_eq_true] at hmatched
      exact describes_add_matched h hignored hmatched

theorem describes_foldl (h : Describes table paths result) (more : List String) :
    Describes table (paths ++ more) (more.foldl (add table) result) := by
  induction more generalizing paths result with
  | nil => rw [List.append_nil]; exact h
  | cons path more ih =>
    have hrest := ih (describes_add h path)
    rwa [List.append_assoc] at hrest

end MatchResult

/-- **Matching finds what the table says.** -/
theorem ChangeSet.describes_evaluate (changes : ChangeSet) (table : RuleTable) :
    MatchResult.Describes table changes.paths (changes.evaluate table) :=
  MatchResult.describes_foldl (MatchResult.describes_nil table) changes.paths

/-- The entries of a match result are the rules that find something, with what they find. -/
theorem ChangeSet.mem_labels_evaluate {changes : ChangeSet} {table : RuleTable} {l : String}
    {found : LabelMatch} :
    (l, found) ∈ (changes.evaluate table).labels.entries
      ↔ ∃ rule ∈ table.rules, rule.label = l ∧ rule.matchIn table changes.paths = some found := by
  have h := changes.describes_evaluate table
  rw [OrderedMap.mem_entries_iff]
  constructor
  · intro hget
    by_cases hl : l ∈ table.rules.map LabelRule.label
    · obtain ⟨rule, hrule, rfl⟩ := List.mem_map.mp hl
      exact ⟨rule, hrule, rfl, (h.labels rule hrule).symm.trans hget⟩
    · rw [h.others l hl] at hget
      cases hget
  · rintro ⟨rule, hrule, rfl, hmatch⟩
    rw [h.labels rule hrule, hmatch]

end PathLabels
