import Mathlib.Data.List.Nodup
import PathLabels.Proofs.ByteOrder
import PathLabels.Proofs.EffectiveMatch

/-!
# Where every path ends up

Matching puts each changed path somewhere: with the ignored paths, with the unmatched ones, or with
the files of labels. This file says where, for every table and every change set, and what stands
with the files of a label. Nothing here speaks of the order in which paths and rules are gone
through.
-/

namespace PathLabels

/-- The texts are in ascending order of their bytes, each once. -/
def Ascending.ByBytes (s : List String) : Prop :=
  s.Pairwise fun a b => Text.bytes a < Text.bytes b

/-- A match holds what a rule of a table says of a change set. -/
structure LabelMatch.IsOf (found : LabelMatch) (table : RuleTable) (changes : ChangeSet)
    (rule : LabelRule) : Prop where
  ascends : Ascending.ByBytes found.files
  mem_files : ∀ path, path ∈ found.files
    ↔ path ∈ changes.paths ∧ table.isIgnored path = false
        ∧ (∃ p ∈ rule.dirs, p.isMatch path = true) ∧ ∀ p ∈ rule.exclusions, p.isMatch path = false
  /-- Some pattern that matches one of the files is as specific as the match. -/
  reached : ∃ path ∈ found.files, ∃ p ∈ rule.dirs,
    p.isMatch path = true ∧ p.specificity = found.specificity
  /-- None is more specific. -/
  greatest : ∀ path ∈ found.files, ∀ p ∈ rule.dirs,
    p.isMatch path = true → p.specificity ≤ found.specificity

namespace MatchResult

/-- Whether a path is among the files of some label. -/
def Files (result : MatchResult) (path : String) : Prop :=
  ∃ l found, (l, found) ∈ result.labels.entries ∧ path ∈ found.files

/-- A path has one place in a result. -/
def HasOnePlace (result : MatchResult) (path : String) : Prop :=
  (path ∈ result.ignored ∧ path ∉ result.unmatched ∧ ¬result.Files path)
    ∨ (path ∉ result.ignored ∧ path ∈ result.unmatched ∧ ¬result.Files path)
    ∨ (path ∉ result.ignored ∧ path ∉ result.unmatched ∧ result.Files path)

end MatchResult

variable {table : RuleTable} {changes : ChangeSet} {rule : LabelRule} {path l : String}
  {found : LabelMatch}

/-! ## The files of a label -/

theorem LabelRule.isExcluded_eq_false_iff :
    rule.isExcluded path = false ↔ ∀ p ∈ rule.exclusions, p.isMatch path = false := by
  rw [LabelRule.isExcluded, List.any_eq_false]
  simp only [Bool.not_eq_true]

theorem exists_effectiveMatch_iff (hrule : rule ∈ table.rules) :
    (∃ pattern, EffectiveMatch table changes path rule pattern)
      ↔ path ∈ changes.paths ∧ table.isIgnored path = false
        ∧ (∃ p ∈ rule.dirs, p.isMatch path = true)
        ∧ ∀ p ∈ rule.exclusions, p.isMatch path = false := by
  rw [← LabelRule.isExcluded_eq_false_iff]
  constructor
  · rintro ⟨pattern, h⟩
    exact ⟨h.changed, h.kept, ⟨pattern, h.pattern_mem, h.isMatch⟩, h.allowed⟩
  · rintro ⟨hchanged, hkept, ⟨pattern, hpattern, hmatch⟩, hallowed⟩
    exact ⟨pattern, hchanged, hkept, hrule, hpattern, hmatch, hallowed⟩

/-- Whatever is taken out of a change set is in its order. -/
theorem ChangeSet.byBytes_filter (changes : ChangeSet) (p : String → Bool) :
    Ascending.ByBytes (changes.paths.filter p) :=
  (changes.ascends.filter p).imp Text.bytes_lt_bytes_iff.mpr

theorem Found.isOf (hrule : rule ∈ table.rules) (h : Found table changes rule found) :
    found.IsOf table changes rule where
  ascends := by rw [h.files]; exact changes.byBytes_filter _
  mem_files path := by rw [h.files, mem_effectiveFiles hrule, exists_effectiveMatch_iff hrule]
  reached := by
    obtain ⟨path, pattern, heff, hs⟩ := h.reached
    refine ⟨path, ?_, pattern, heff.pattern_mem, heff.isMatch, hs⟩
    rw [h.files, mem_effectiveFiles hrule]
    exact ⟨pattern, heff⟩
  greatest path hpath pattern hpattern hmatch := by
    rw [h.files, mem_effectiveFiles hrule] at hpath
    obtain ⟨_, heff⟩ := hpath
    exact h.greatest path pattern { heff with pattern_mem := hpattern, isMatch := hmatch }

/-- A label stands in the result exactly if its rule has an effective match. -/
theorem mem_keys_evaluate_iff (hrule : rule ∈ table.rules) :
    rule.label ∈ (changes.evaluate table).labels.keys
      ↔ ∃ path pattern, EffectiveMatch table changes path rule pattern := by
  constructor
  · intro h
    obtain ⟨⟨l, found⟩, hmem, rfl⟩ := List.mem_map.mp h
    obtain ⟨rule', hrule', hlabel, hfound⟩ := found_of_mem_labels_evaluate hmem
    -- two rules with one label are the same rule
    obtain rfl := List.inj_on_of_nodup_map table.labels_nodup hrule' hrule hlabel
    obtain ⟨path, pattern, heff, _⟩ := hfound.reached
    exact ⟨path, pattern, heff⟩
  · rintro ⟨path, pattern, heff⟩
    obtain ⟨found, hmem, _⟩ := mem_labels_evaluate_of_effective heff
    exact List.mem_map.mpr ⟨_, hmem, rfl⟩

theorem isOf_of_mem_labels_evaluate (hrule : rule ∈ table.rules)
    (h : (rule.label, found) ∈ (changes.evaluate table).labels.entries) :
    found.IsOf table changes rule := by
  obtain ⟨rule', hrule', hlabel, hfound⟩ := found_of_mem_labels_evaluate h
  obtain rfl := List.inj_on_of_nodup_map table.labels_nodup hrule' hrule hlabel
  exact hfound.isOf hrule

theorem isKnownLabel_of_mem_keys (h : l ∈ (changes.evaluate table).labels.keys) :
    table.isKnownLabel l = true := by
  obtain ⟨⟨l, found⟩, hmem, rfl⟩ := List.mem_map.mp h
  obtain ⟨rule, hrule, hlabel, _⟩ := found_of_mem_labels_evaluate hmem
  exact List.any_eq_true.mpr ⟨rule, hrule, beq_iff_eq.mpr hlabel⟩

/-! ## The three places -/

theorem mem_ignored_iff :
    path ∈ (changes.evaluate table).ignored
      ↔ path ∈ changes.paths ∧ table.isIgnored path = true := by
  rw [(changes.describes_evaluate table).ignored, List.mem_filter]

theorem files_evaluate_iff :
    (changes.evaluate table).Files path
      ↔ path ∈ changes.paths ∧ table.isIgnored path = false
        ∧ ∃ rule ∈ table.rules, (rule.bestMatch path).isSome = true := by
  constructor
  · rintro ⟨l, found, hmem, hpath⟩
    obtain ⟨rule, hrule, rfl, hfound⟩ := found_of_mem_labels_evaluate hmem
    rw [hfound.files, effectiveFiles_eq_filter_counts, List.mem_filter, LabelRule.counts,
      Bool.and_eq_true, Bool.not_eq_true'] at hpath
    exact ⟨hpath.1, hpath.2.1, rule, hrule, hpath.2.2⟩
  · rintro ⟨hpath, hkept, rule, hrule, hsome⟩
    have hfile : path ∈ effectiveFiles table changes rule := by
      rw [effectiveFiles_eq_filter_counts, List.mem_filter, LabelRule.counts, hkept, hsome]
      exact ⟨hpath, rfl⟩
    obtain ⟨pattern, heff⟩ := (mem_effectiveFiles hrule).mp hfile
    obtain ⟨found, hmem, hfound⟩ := mem_labels_evaluate_of_effective heff
    exact ⟨rule.label, found, hmem, hfound.files ▸ hfile⟩

theorem mem_unmatched_iff :
    path ∈ (changes.evaluate table).unmatched
      ↔ path ∈ changes.paths ∧ path ∉ (changes.evaluate table).ignored
        ∧ ¬(changes.evaluate table).Files path := by
  rw [(changes.describes_evaluate table).unmatched, List.mem_filter, mem_ignored_iff,
    files_evaluate_iff, MatchResult.isUnmatched, Bool.and_eq_true, Bool.not_eq_true',
    List.all_eq_true]
  simp only [Option.isNone_iff_eq_none, Option.isSome_iff_ne_none]
  constructor
  · rintro ⟨hpath, hkept, hnone⟩
    refine ⟨hpath, fun h => ?_, ?_⟩
    · rw [hkept] at h
      exact Bool.false_ne_true h.2
    · rintro ⟨_, _, rule, hrule, hsome⟩
      exact hsome (hnone rule hrule)
  · rintro ⟨hpath, hkept, hnone⟩
    have hkept : table.isIgnored path = false := by
      rw [← Bool.not_eq_true]
      exact fun h => hkept ⟨hpath, h⟩
    refine ⟨hpath, hkept, fun rule hrule => ?_⟩
    by_contra hsome
    exact hnone ⟨hpath, hkept, rule, hrule, hsome⟩

/-- An ignored path is among the files of no label. -/
theorem not_files_of_mem_ignored (h : path ∈ (changes.evaluate table).ignored) :
    ¬(changes.evaluate table).Files path := by
  rw [files_evaluate_iff]
  rintro ⟨_, hkept, _⟩
  rw [(mem_ignored_iff.mp h).2] at hkept
  cases hkept

theorem hasOnePlace_evaluate (h : path ∈ changes.paths) :
    (changes.evaluate table).HasOnePlace path := by
  by_cases hignored : path ∈ (changes.evaluate table).ignored
  · exact Or.inl ⟨hignored, fun h' => (mem_unmatched_iff.mp h').2.1 hignored,
      not_files_of_mem_ignored hignored⟩
  · by_cases hfiles : (changes.evaluate table).Files path
    · exact Or.inr (Or.inr ⟨hignored, fun h' => (mem_unmatched_iff.mp h').2.2 hfiles, hfiles⟩)
    · exact Or.inr (Or.inl ⟨hignored, mem_unmatched_iff.mpr ⟨h, hignored, hfiles⟩, hfiles⟩)

/--
**Matching is the relation that the table describes.**

The ignored paths are those that a pattern to ignore matches. A rule's label stands in the result
exactly if some path that is not ignored falls under one of its patterns and under none of its
exclusions; then its files are these paths, and its specificity is the greatest among its patterns
on them. No other label stands there. The unmatched paths are those left over, so each path has one
place.
-/
theorem evaluate_places_paths (table : RuleTable) (changes : ChangeSet) :
    let result := changes.evaluate table
    (Ascending.ByBytes result.ignored ∧ ∀ path, path ∈ result.ignored
        ↔ path ∈ changes.paths ∧ ∃ p ∈ table.ignore, p.isMatch path = true)
      ∧ (∀ rule ∈ table.rules,
          (rule.label ∈ result.labels.keys
            ↔ ∃ path ∈ changes.paths, table.isIgnored path = false
                ∧ (∃ p ∈ rule.dirs, p.isMatch path = true)
                ∧ ∀ p ∈ rule.exclusions, p.isMatch path = false)
          ∧ ∀ found, (rule.label, found) ∈ result.labels.entries →
              found.IsOf table changes rule)
      ∧ (∀ l ∈ result.labels.keys, table.isKnownLabel l = true)
      ∧ (Ascending.ByBytes result.unmatched ∧ ∀ path, path ∈ result.unmatched
          ↔ path ∈ changes.paths ∧ path ∉ result.ignored ∧ ¬result.Files path)
      ∧ ∀ path ∈ changes.paths, result.HasOnePlace path := by
  intro result
  have hresult := changes.describes_evaluate table
  refine ⟨⟨?_, fun path => ?_⟩, fun rule hrule => ⟨?_, fun found h => ?_⟩, fun l hl => ?_,
    ⟨?_, fun path => mem_unmatched_iff⟩, fun path hpath => hasOnePlace_evaluate hpath⟩
  · rw [hresult.ignored]
    exact changes.byBytes_filter _
  · rw [mem_ignored_iff, RuleTable.isIgnored, List.any_eq_true]
  · rw [mem_keys_evaluate_iff hrule]
    refine exists_congr fun path => ?_
    rw [exists_effectiveMatch_iff hrule]
  · exact isOf_of_mem_labels_evaluate hrule h
  · exact isKnownLabel_of_mem_keys hl
  · rw [hresult.unmatched]
    exact changes.byBytes_filter _

/-- A table with an exclusion and a path to ignore. -/
def RuleTable.ownSubtopic : RuleTable where
  settings := {}
  ignore := [.literal "Mathlib.lean" ["Mathlib.lean"]]
  rules := [⟨"t-analysis", [.literal "Mathlib/Analysis" ["Mathlib", "Analysis"]],
      [.literal "Mathlib/Analysis/Complex" ["Mathlib", "Analysis", "Complex"]]⟩,
    ⟨"t-complex", [.literal "Mathlib" ["Mathlib"],
      .literal "Mathlib/Analysis/Complex" ["Mathlib", "Analysis", "Complex"]], []⟩]
  labels_nodup := by decide

/-- The excluded path counts towards the other rule only, with the better one of its patterns. -/
theorem evaluate_places_paths_ownSubtopic :
    let changes := ChangeSet.ofList ["README.md", "./Mathlib.lean",
      "Mathlib/Analysis/Complex/Basic.lean", "Mathlib/Analysis/Normed.lean"]
    let result := changes.evaluate .ownSubtopic
    let complex := "Mathlib/Analysis/Complex/Basic.lean"
    complex ∈ changes.paths
      ∧ (∃ rule ∈ RuleTable.ownSubtopic.rules, rule.label = "t-analysis"
          ∧ rule.label ∈ result.labels.keys
          ∧ ∀ found, (rule.label, found) ∈ result.labels.entries → complex ∉ found.files)
      ∧ (∃ rule ∈ RuleTable.ownSubtopic.rules, rule.label = "t-complex"
          ∧ rule.label ∈ result.labels.keys
          ∧ ∀ found, (rule.label, found) ∈ result.labels.entries →
              complex ∈ found.files ∧ ⟨3, 24⟩ ≤ found.specificity)
      ∧ "Mathlib.lean" ∈ result.ignored ∧ result.HasOnePlace complex := by
  intro changes result complex
  have hcomplex : complex ∈ changes.paths := by decide +kernel
  obtain ⟨hignored, hlabels, _, _, hplaces⟩ := evaluate_places_paths .ownSubtopic changes
  refine ⟨hcomplex, ⟨_, List.mem_cons_self, rfl, ?_, fun found h hfile => ?_⟩,
    ⟨_, List.mem_cons_of_mem _ List.mem_cons_self, rfl, ?_, fun found h => ?_⟩, ?_,
    hplaces complex hcomplex⟩
  · refine (hlabels _ List.mem_cons_self).1.mpr ⟨"Mathlib/Analysis/Normed.lean", ?_⟩
    decide +kernel
  · -- the exclusion matches the path
    have hfound := (hlabels _ List.mem_cons_self).2 found h
    have hallowed := ((hfound.mem_files complex).mp hfile).2.2.2 _ List.mem_cons_self
    exact absurd hallowed (by decide +kernel)
  · refine (hlabels _ (List.mem_cons_of_mem _ List.mem_cons_self)).1.mpr ⟨complex, ?_⟩
    decide +kernel
  · have hfound := (hlabels _ (List.mem_cons_of_mem _ List.mem_cons_self)).2 found h
    have hfile : complex ∈ found.files := (hfound.mem_files complex).mpr (by decide +kernel)
    exact ⟨hfile, hfound.greatest complex hfile _ (List.mem_cons_of_mem _ List.mem_cons_self)
      (by decide +kernel)⟩
  · exact (hignored.2 "Mathlib.lean").mpr (by decide +kernel)

end PathLabels
