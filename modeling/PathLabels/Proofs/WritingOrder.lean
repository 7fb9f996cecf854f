import PathLabels.Decision
import PathLabels.Proofs.Compiling
import PathLabels.Proofs.MatchRelation

/-!
# The order of writing makes no difference

People reorder rule tables, and git lists changed paths in an order of its own. Neither changes what
is matched or decided. What matching finds is described by a relation in which patterns and rules
only occur as members of their lists, and the relation leaves room for one result. So two tables
with the same members have the same result on the same set of paths, and the decision is made of the
result.
-/

namespace PathLabels

variable {table table' : RuleTable} {rule rule' : LabelRule} {path : String}

/-! ## One result for each description -/

theorem MatchResult.eq_of_describes {paths : List String} {result result' : MatchResult}
    (h : Describes table paths result) (h' : Describes table paths result') : result = result' := by
  have hlabels : result.labels = result'.labels := by
    refine OrderedMap.eq_of_get?_eq fun l => ?_
    by_cases hl : l ∈ table.rules.map LabelRule.label
    · obtain ⟨rule, hrule, rfl⟩ := List.mem_map.mp hl
      rw [h.labels rule hrule, h'.labels rule hrule]
    · rw [h.others l hl, h'.others l hl]
  have hunmatched := h.unmatched.trans h'.unmatched.symm
  have hignored := h.ignored.trans h'.ignored.symm
  cases result
  cases result'
  cases hlabels
  cases hunmatched
  cases hignored
  rfl

/-! ## Tables with the same members -/

/-- Two rules for one label have the same patterns, in any order. -/
structure LabelRule.SameAs (rule rule' : LabelRule) : Prop where
  label : rule.label = rule'.label
  dirs : ∀ p, p ∈ rule.dirs ↔ p ∈ rule'.dirs
  exclusions : ∀ p, p ∈ rule.exclusions ↔ p ∈ rule'.exclusions

/-- Two tables ignore the same patterns and have the same rules, in any order. -/
structure RuleTable.SameAs (table table' : RuleTable) : Prop where
  ignore : ∀ p, p ∈ table.ignore ↔ p ∈ table'.ignore
  rules : ∀ rule ∈ table.rules, ∃ rule' ∈ table'.rules, rule.SameAs rule'
  rules_symm : ∀ rule' ∈ table'.rules, ∃ rule ∈ table.rules, rule.SameAs rule'

theorem any_eq_of_mem_iff {α : Type} {as bs : List α} (h : ∀ a, a ∈ as ↔ a ∈ bs) (p : α → Bool) :
    as.any p = bs.any p := by
  rw [Bool.eq_iff_iff, List.any_eq_true, List.any_eq_true]
  exact exists_congr fun a => and_congr_left' (h a)

namespace LabelRule.SameAs

theorem isExcluded_eq (h : rule.SameAs rule') (path : String) :
    rule.isExcluded path = rule'.isExcluded path :=
  any_eq_of_mem_iff h.exclusions _

/-- The best match is the greatest one, wherever its pattern is written. -/
theorem bestMatch_eq (h : rule.SameAs rule') (path : String) :
    rule.bestMatch path = rule'.bestMatch path := by
  refine Option.ext fun s => ?_
  rw [bestMatch_eq_some_iff, bestMatch_eq_some_iff, h.isExcluded_eq]
  simp only [h.dirs]

end LabelRule.SameAs

namespace RuleTable.SameAs

theorem isIgnored_eq (h : table.SameAs table') : table.isIgnored = table'.isIgnored :=
  funext fun _ => any_eq_of_mem_iff h.ignore _

theorem isUnmatched_eq (h : table.SameAs table') (path : String) :
    MatchResult.isUnmatched table path = MatchResult.isUnmatched table' path := by
  rw [Bool.eq_iff_iff, MatchResult.isUnmatched, MatchResult.isUnmatched, List.all_eq_true,
    List.all_eq_true]
  constructor
  · intro hall rule' hrule'
    obtain ⟨rule, hrule, hsame⟩ := h.rules_symm rule' hrule'
    rw [← hsame.bestMatch_eq]
    exact hall rule hrule
  · intro hall rule hrule
    obtain ⟨rule', hrule', hsame⟩ := h.rules rule hrule
    rw [hsame.bestMatch_eq]
    exact hall rule' hrule'

theorem matchIn_eq (h : table.SameAs table') (hrule : rule.SameAs rule') (paths : List String) :
    rule.matchIn table paths = rule'.matchIn table' paths := by
  have hbest : rule.bestMatch = rule'.bestMatch := funext hrule.bestMatch_eq
  have hcounts : rule.counts table = rule'.counts table' :=
    funext fun path => by rw [LabelRule.counts, LabelRule.counts, h.isIgnored_eq, hbest]
  rw [LabelRule.matchIn, LabelRule.matchIn, hcounts, hbest]

/-- A description of a result by one of the tables is one by the other. -/
theorem describes (h : table.SameAs table') {paths : List String} {result : MatchResult}
    (hresult : MatchResult.Describes table' paths result) :
    MatchResult.Describes table paths result where
  ignored := by rw [h.isIgnored_eq]; exact hresult.ignored
  unmatched := by
    simp only [h.isIgnored_eq, h.isUnmatched_eq]
    exact hresult.unmatched
  labels rule hrule := by
    obtain ⟨rule', hrule', hsame⟩ := h.rules rule hrule
    rw [hsame.label, h.matchIn_eq hsame]
    exact hresult.labels rule' hrule'
  others l hl := by
    refine hresult.others l fun hmem => hl ?_
    obtain ⟨rule', hrule', rfl⟩ := List.mem_map.mp hmem
    obtain ⟨rule, hrule, hsame⟩ := h.rules_symm rule' hrule'
    exact List.mem_map.mpr ⟨rule, hrule, hsame.label⟩

theorem evaluate_eq (h : table.SameAs table') (changes : ChangeSet) :
    changes.evaluate table = changes.evaluate table' :=
  MatchResult.eq_of_describes (changes.describes_evaluate table)
    (h.describes (changes.describes_evaluate table'))

end RuleTable.SameAs

/-! ## Written tables -/

/-- Two written rules differ in the order of their patterns only. -/
structure RawRule.Reordered (raw raw' : RawRule) : Prop where
  label : raw.label = raw'.label
  dirs : raw.dirs.Perm raw'.dirs
  exclusions : raw.exclusions.Perm raw'.exclusions

/-- Two written tables differ in the order of their rules, of the patterns in each rule, and of the
patterns to ignore only. -/
structure RawTable.Reordered (raw raw' : RawTable) : Prop where
  policy : raw.settings.policy = raw'.settings.policy
  maxLabels : raw.settings.maxLabels = raw'.settings.maxLabels
  skipIfLabeled : raw.settings.skipIfLabeled = raw'.settings.skipIfLabeled
  ignore : raw.settings.ignore.Perm raw'.settings.ignore
  rules : ∃ rules, raw.rules.Perm rules ∧ List.Forall₂ RawRule.Reordered rules raw'.rules

variable {raw raw' : RawTable}

theorem mem_compilePatterns_iff {raws raws' : List String} {ps ps' : List PathPattern}
    (hperm : raws.Perm raws') (h : RuleTable.compilePatterns raws = .ok ps)
    (h' : RuleTable.compilePatterns raws' = .ok ps') (p : PathPattern) : p ∈ ps ↔ p ∈ ps' := by
  rw [mem_iff_of_mapM_ok h, mem_iff_of_mapM_ok h']
  simp only [hperm.mem_iff]

theorem RawRule.Reordered.sameAs {raw raw' : RawRule} (hraw : raw.Reordered raw')
    (h : rule.CompiledFrom raw) (h' : rule'.CompiledFrom raw') : rule.SameAs rule' where
  label := by rw [h.label, h'.label, hraw.label]
  dirs := mem_compilePatterns_iff hraw.dirs h.dirs h'.dirs
  exclusions := mem_compilePatterns_iff hraw.exclusions h.exclusions h'.exclusions

theorem RawTable.Reordered.sameAs (hraw : raw.Reordered raw') (h : table.CompiledFrom raw)
    (h' : table'.CompiledFrom raw') : table.SameAs table' := by
  obtain ⟨rules, hperm, hreordered⟩ := hraw.rules
  refine ⟨mem_compilePatterns_iff hraw.ignore h.ignore h'.ignore, fun rule hrule => ?_,
    fun rule' hrule' => ?_⟩
  · -- from the rule to its written form, to that in the other order, and to its rule
    obtain ⟨r, hr, hfrom⟩ := exists_left_of_mem h.rules hrule
    obtain ⟨r', hr', hsame⟩ := exists_right_of_mem hreordered (hperm.mem_iff.mp hr)
    obtain ⟨rule', hrule', hfrom'⟩ := exists_right_of_mem h'.rules hr'
    exact ⟨rule', hrule', hsame.sameAs hfrom hfrom'⟩
  · obtain ⟨r', hr', hfrom'⟩ := exists_left_of_mem h'.rules hrule'
    obtain ⟨r, hr, hsame⟩ := exists_left_of_mem hreordered hr'
    obtain ⟨rule, hrule, hfrom⟩ := exists_right_of_mem h.rules (hperm.mem_iff.mpr hr)
    exact ⟨rule, hrule, hsame.sameAs hfrom hfrom'⟩

/-! ## The decision -/

/-- A list of entries stands for a set. -/
theorem ChangeSet.ofList_eq_of_mem_iff {paths paths' : List String}
    (h : ∀ p, p ∈ paths ↔ p ∈ paths') : ofList paths = ofList paths' := by
  refine eq_of_mem_iff fun p => ?_
  rw [mem_paths_ofList, mem_paths_ofList]
  simp only [h]

/-- A decision depends on no settings but the policy and the cap. -/
theorem MatchResult.decide_eq_of_settings {settings settings' : Settings} (result : MatchResult)
    (hpolicy : settings.policy = settings'.policy)
    (hmax : settings.maxLabels = settings'.maxLabels) :
    result.decide settings = result.decide settings' := by
  rw [decide, decide, Settings.cap, Settings.cap, hpolicy, hmax]

/--
**Neither the order of the paths nor that of the table matters.**

Two lists of paths with the same members, and two tables that are written with the same members,
give the same change set, the same result of matching, and the same decision, under the policy and
the cap of the tables and under any others.
-/
theorem evaluate_reordered {paths paths' : List String} (hpaths : ∀ p, p ∈ paths ↔ p ∈ paths')
    (hraw : raw.Reordered raw') (h : RuleTable.compile raw = .ok table)
    (h' : RuleTable.compile raw' = .ok table') :
    ChangeSet.ofList paths = ChangeSet.ofList paths'
      ∧ (ChangeSet.ofList paths).evaluate table = (ChangeSet.ofList paths').evaluate table'
      ∧ (∀ settings settings' : Settings, settings.policy = settings'.policy →
          settings.maxLabels = settings'.maxLabels →
          ((ChangeSet.ofList paths).evaluate table).decide settings
            = ((ChangeSet.ofList paths').evaluate table').decide settings')
      ∧ (ChangeSet.ofList paths).decision table = (ChangeSet.ofList paths').decision table' := by
  have hfrom := RuleTable.compiledFrom_of_compile h
  have hfrom' := RuleTable.compiledFrom_of_compile h'
  have hchanges := ChangeSet.ofList_eq_of_mem_iff hpaths
  have hresult : (ChangeSet.ofList paths).evaluate table
      = (ChangeSet.ofList paths').evaluate table' := by
    rw [hchanges]
    exact (hraw.sameAs hfrom hfrom').evaluate_eq _
  refine ⟨hchanges, hresult, fun settings settings' hpolicy hmax => ?_, ?_⟩
  · rw [hresult]
    exact MatchResult.decide_eq_of_settings _ hpolicy hmax
  · rw [ChangeSet.decision, ChangeSet.decision, hresult]
    refine MatchResult.decide_eq_of_settings _ ?_ ?_
    · rw [hfrom.settings, hfrom'.settings, hraw.policy]
    · rw [hfrom.settings, hfrom'.settings, hraw.maxLabels]

/-- A table for a topic and its subtopic, with old and new parts left out of the subtopic. -/
def RawTable.nested : RawTable where
  settings := { policy := .all, maxLabels := 2, ignore := ["docs", "Mathlib.lean"] }
  rules := [
    ⟨"t-analysis", ["Mathlib/Analysis", "Mathlib/Analysis/Complex/Basic"], []⟩,
    ⟨"t-complex", ["Mathlib/Analysis/Complex"],
      ["Mathlib/Analysis/Complex/Old", "Mathlib/Analysis/Complex/New"]⟩]

/-- The same table, written the other way round in every list. -/
def RawTable.nestedReversed : RawTable where
  settings := { policy := .all, maxLabels := 2, ignore := ["Mathlib.lean", "docs"] }
  rules := [
    ⟨"t-complex", ["Mathlib/Analysis/Complex"],
      ["Mathlib/Analysis/Complex/New", "Mathlib/Analysis/Complex/Old"]⟩,
    ⟨"t-analysis", ["Mathlib/Analysis/Complex/Basic", "Mathlib/Analysis"], []⟩]

/-- Both tables find both labels, although one file is ignored and one is excluded. -/
theorem evaluate_reordered_nested :
    let paths := ["docs/a.md", "./Mathlib/Analysis/Complex/Basic", "Mathlib/Analysis/Complex/Old/X"]
    let paths' := ["Mathlib/Analysis/Complex/Old/X", "docs/a.md",
      "./Mathlib/Analysis/Complex/Basic", "docs/a.md"]
    (∀ p, p ∈ paths ↔ p ∈ paths') ∧ RawTable.nested.Reordered .nestedReversed
      ∧ ∃ table table', RuleTable.compile .nested = .ok table
        ∧ RuleTable.compile .nestedReversed = .ok table'
        ∧ (ChangeSet.ofList paths).decision table = (ChangeSet.ofList paths').decision table'
        ∧ ((ChangeSet.ofList paths).evaluate table).labels.keys = ["t-analysis", "t-complex"] := by
  intro paths paths'
  have hpaths : ∀ p, p ∈ paths ↔ p ∈ paths' := by
    intro p
    simp only [paths, paths', List.mem_cons, List.not_mem_nil]
    grind
  have hraw : RawTable.nested.Reordered .nestedReversed :=
    ⟨rfl, rfl, rfl, by decide, _, List.Perm.swap _ _ _,
      .cons ⟨rfl, by decide, by decide⟩ (.cons ⟨rfl, by decide, by decide⟩ .nil)⟩
  have hlabels : ((RuleTable.compile .nested).map fun table =>
      ((ChangeSet.ofList paths).evaluate table).labels.keys) = .ok ["t-analysis", "t-complex"] := by
    decide +kernel
  have hcompiles : (RuleTable.compile .nestedReversed).isOk = true := by decide +kernel
  cases h : RuleTable.compile .nested with
  | error e => rw [h] at hlabels; cases hlabels
  | ok table =>
    cases h' : RuleTable.compile .nestedReversed with
    | error e => rw [h'] at hcompiles; cases hcompiles
    | ok table' =>
      rw [h] at hlabels
      exact ⟨hpaths, hraw, table, table', rfl, rfl, (evaluate_reordered hpaths hraw h h').2.2.2,
        Except.ok.inj hlabels⟩

end PathLabels
